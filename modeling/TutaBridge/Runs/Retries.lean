import TutaBridge.Events.Handler
import TutaBridge.Sync.PrefetchLoop

/-!
# Retries of failed mails

A sweep leaves a failed mail with a deadline that is still ahead, whether it set the deadline
or found it. So when the sweep ends and no deadline is ahead any more, the deadline of a mail
that awaits its retry fell due while the sweep went on, and nothing but a change of the store
will bring the loop back to it.
-/

namespace TutaBridge.Runs

open TutaBridge.Std Tuta Store Bridge Sync
  TutaBridge.Events

variable {folder : FolderInfo} {rest : List FolderInfo} {elementId : String} {world : World}

/-! ## Deadlines -/

theorem afterFailure_nextAttempt_gt (previous : Option AttachmentRetry) (retryable : Bool)
    (now : Nat) : now < (AttachmentRetry.afterFailure previous retryable now).nextAttempt := by
  have longest : 0 < attachmentRetryMax := by decide
  have shortest : 0 < attachmentRetryMin := by decide
  have positive : ∀ exponent, 0 < attachmentRetryMin * 2 ^ exponent :=
    fun exponent => Nat.mul_pos shortest (Nat.two_pow_pos exponent)
  simp only [AttachmentRetry.afterFailure]
  split
  · exact Nat.lt_add_of_pos_right (lt_min (positive _) longest)
  · exact Nat.lt_add_of_pos_right longest

/-- Without a timer no deadline is ahead. -/
theorem le_of_nextAttachmentRetry {history : Dict String AttachmentRetry} {now : Nat}
    (unarmed : nextAttachmentRetry history now = none) {retry : AttachmentRetry}
    (entry : history.get? elementId = some retry) : retry.nextAttempt ≤ now := by
  by_contra ahead
  have row : history.find? elementId = some (elementId, retry) := by
    rw [Dict.find?_eq_get?, entry]
    rfl
  have nothing := List.min?_eq_none_iff.mp unarmed
  have delay : retry.nextAttempt - now ∈ (history.rows.filterMap fun row =>
      if now ≤ row.2.nextAttempt then some (row.2.nextAttempt - now) else none).filter (· ≠ 0) := by
    refine List.mem_filter.mpr ⟨List.mem_filterMap.mpr ⟨_, Table.mem_of_find? row, ?_⟩, ?_⟩
    · exact if_pos (Nat.le_of_lt (Nat.lt_of_not_le ahead))
    · exact decide_eq_true (Nat.sub_ne_zero_of_lt (Nat.lt_of_not_le ahead))
  rw [nothing] at delay
  cases delay

/-! ## One step of a pass -/

/-- The ids of some mails. -/
def ids (mails : List StoredMail) : List String := mails.filterMap StoredMail.elementId

/-- The mails a pass is still to deal with, the one it tries first. -/
def pending (pass : PrefetchPhase) : List String := pass.attempt.toList ++ ids pass.queue

/-- What a step of a pass does about a mail: it goes on with its attempt, or it leaves the mail
with a deadline ahead or none, unless the mail has left the folder. -/
structure PassStep (env : Env) (folder : FolderInfo) (state next : Prefetcher)
    (pass later : PrefetchPhase) : Prop where
  pending : pending pass = pass.about.toList ++ ids later.queue
  attempts : ∀ elementId, later.attempt = some elementId → pass.about = some elementId
  others : ∀ other, pass.about ≠ some other →
    next.history.get? other = state.history.get? other
  settles : ∀ elementId, pass.about = some elementId → later.attempt = none →
    state.world.store.mailInFolder folder.id elementId = none ∨
      ∀ retry, next.history.get? elementId = some retry → env.now next.world.tick < retry.nextAttempt

section Pass

variable {env : Env} {folder : FolderInfo} {state : Prefetcher} {elementId : String}
  {rest : List StoredMail}

theorem others_erase (other : String) (different : some elementId ≠ some other) :
    Dict.get? (state.history.erase elementId) other = state.history.get? other := by
  rw [Dict.get?_erase, if_neg fun same => different (congrArg some same.symm)]

theorem others_backOff {retryable : Bool} (other : String) (different : some elementId ≠ some other) :
    (state.backOff env elementId retryable).history.get? other = state.history.get? other := by
  rw [Prefetcher.backOff, Dict.get?_set, if_neg fun same => different (congrArg some same.symm)]

/-- An attempt that goes on. -/
theorem passStep_goes_on {next : Prefetcher} {pass later : PrefetchPhase}
    (about : pass.about = some elementId) (pending : pending pass = elementId :: ids later.queue)
    (attempt : later.attempt = some elementId) (same : next.history = state.history) :
    PassStep env folder state next pass later where
  pending := by rw [pending, about]; rfl
  attempts other isOther := by rw [about, ← isOther, attempt]
  others other _ := by rw [same]
  settles other _ ended := by rw [attempt] at ended; cases ended

/-- An attempt that ends with a failure. -/
theorem passStep_fails {pass : PrefetchPhase} {retryable : Bool}
    (about : pass.about = some elementId) (pending : pending pass = elementId :: ids rest) :
    PassStep env folder state (({ state with world := world } : Prefetcher).backOff env elementId retryable)
      pass (.scanning rest) where
  pending := by rw [pending, about]; rfl
  attempts other isOther := by cases isOther
  others other different := by
    rw [about] at different
    exact others_backOff other different
  settles other isAbout _ := by
    refine .inr fun retry entry => ?_
    rw [Option.some.inj (about.symm.trans isAbout)] at entry
    rw [Prefetcher.backOff, Dict.get?_set, if_pos rfl] at entry
    rw [← Option.some.inj entry]
    exact afterFailure_nextAttempt_gt _ _ _

/-- A mail whose entry is dropped. -/
theorem passStep_forgets {pass : PrefetchPhase}
    (about : pass.about = some elementId) (pending : pending pass = elementId :: ids rest) :
    PassStep env folder state ⟨world, state.history.erase elementId⟩ pass (.scanning rest) where
  pending := by rw [pending, about]; rfl
  attempts other isOther := by cases isOther
  others other different := by
    rw [about] at different
    exact others_erase other different
  settles other isAbout _ := by
    refine .inr fun retry entry => ?_
    rw [Option.some.inj (about.symm.trans isAbout), Dict.get?_erase, if_pos rfl] at entry
    cases entry

end Pass

section

variable {env : Env} {state next : Prefetcher} {pass later : PrefetchPhase}
    (stepped : prefetchStep env folder state pass = some (next, later))

include stepped

theorem passStep : PassStep env folder state next pass later := by
  cases pass with
  | scanning window =>
    cases window with
    | nil => cases stepped
    | cons stored rest =>
      simp only [prefetchStep] at stepped
      split at stepped
      next anonymous =>
        cases stepped
        refine ⟨?_, fun _ isOther => ?_, fun _ _ => rfl, fun elementId isAbout => ?_⟩
        · simp [pending, ids, PrefetchPhase.attempt, PrefetchPhase.queue, PrefetchPhase.about, anonymous]
        · cases isOther
        · rw [PrefetchPhase.about, anonymous] at isAbout
          cases isAbout
      next elementId identified =>
        have about : PrefetchPhase.about (.scanning (stored :: rest)) = some elementId := identified
        have isPending : pending (.scanning (stored :: rest)) = elementId :: ids rest := by
          simp [pending, ids, PrefetchPhase.attempt, PrefetchPhase.queue, identified]
        split at stepped
        next =>
          cases stepped
          exact passStep_forgets about isPending
        next =>
          split at stepped
          next throttled =>
            cases stepped
            refine ⟨by rw [isPending, about]; rfl, fun _ isOther => ?_, fun _ _ => rfl,
              fun other isAbout _ => .inr fun retry entry => ?_⟩
            · cases isOther
            · rw [Option.some.inj (isAbout.symm.trans about)] at entry
              rw [Prefetcher.throttled, entry] at throttled
              exact of_decide_eq_true throttled
          next =>
            cases stepped
            exact passStep_goes_on about isPending rfl rfl
  | checking asked retries rest =>
    simp only [prefetchStep] at stepped
    split at stepped
    next left =>
      cases stepped
      refine ⟨rfl, fun _ isOther => ?_, fun _ _ => rfl, fun other isAbout _ => .inl ?_⟩
      · cases isOther
      · rw [← Option.some.inj isAbout]
        exact left
    next =>
      cases stepped
      exact passStep_goes_on rfl rfl rfl rfl
  | requesting asked mail retries rest =>
    simp only [prefetchStep] at stepped
    split at stepped
    next =>
      cases stepped
      exact passStep_goes_on rfl rfl rfl rfl
    next =>
      cases stepped
      exact passStep_fails rfl rfl
    next =>
      cases stepped
      exact passStep_goes_on rfl rfl rfl rfl
  | attaching asked mail details rest =>
    simp only [prefetchStep] at stepped
    split at stepped
    next =>
      cases stepped
      exact passStep_fails rfl rfl
    next =>
      cases stepped
      exact passStep_goes_on rfl rfl rfl rfl
  | writing written body rest =>
    simp only [prefetchStep] at stepped
    split at stepped
    next =>
      cases stepped
      exact passStep_goes_on rfl rfl rfl rfl
    next =>
      cases stepped
      exact passStep_goes_on rfl rfl rfl rfl
  | marking marked body rest =>
    cases stepped
    exact passStep_goes_on rfl rfl rfl rfl
  | indexing indexed body rest =>
    cases stepped
    exact passStep_goes_on rfl rfl rfl rfl
  | completing completed body rest =>
    cases stepped
    exact passStep_goes_on rfl rfl rfl rfl
  | publishing published body rest =>
    cases stepped
    exact passStep_forgets rfl rfl

/-- The step of a pass tells the watchers what concerns them, which is nothing. -/
theorem sameListing_prefetchStep : MailStore.SameListing state.world.store next.world.store ∧
      (state.world.store.Counted → next.world.store.Counted) := by
  have ofEq : next.world.store = state.world.store →
      MailStore.SameListing state.world.store next.world.store ∧
        (state.world.store.Counted → next.world.store.Counted) := by
    intro same
    rw [same]
    exact ⟨.refl _, id⟩
  have moved := prefetchMove stepped
  generalize next.world = after at moved ofEq ⊢
  cases moved with
  | looks _ _ _ sameStore => exact ofEq sameStore
  | obtains _ => exact ofEq rfl
  | writes _ => exact ofEq (World.call_store _ _)
  | marks => exact ofEq (World.write_store _ _)
  | @indexes _ body _ =>
    refine ofEq ?_
    unfold indexDetails
    split
    · rfl
    · exact World.write_store _ _
  | @completes elementId _ _ =>
    have marked := MailStore.sameListing_markComplete folder.id elementId state.world.store
    refine ⟨marked, fun counted => ?_⟩
    show (state.world.store.markComplete folder.id elementId).generation ≤
      (state.world.store.markComplete folder.id elementId).genCounter
    rw [marked.generation, MailStore.genCounter_markComplete]
    exact counted
  | publishes =>
    exact ⟨MailStore.sameListing_publishBody _ _ _, fun counted => Nat.le_succ_of_le counted⟩

end

/-! ## The window -/

/-- The ids of the window of a folder. -/
def windowIds (limit : Nat) (store : MailStore) (folderId : String) : List String :=
  ids (prefetchWindow (store.getFolder folderId) limit)

/-- The window is one of the mails, not of what is known of their bodies. -/
theorem map_prefetchWindow {mails mails' : List StoredMail}
    (same : mails.map StoredMail.mail = mails'.map StoredMail.mail) (limit : Nat) :
    (prefetchWindow mails limit).map StoredMail.mail = (prefetchWindow mails' limit).map StoredMail.mail := by
  have sorted : ∀ list : List StoredMail,
      (list.insertionSort fun left right => right.mail.receivedDate ≤ left.mail.receivedDate).map
          StoredMail.mail =
        (list.map StoredMail.mail).insertionSort fun left right =>
          right.receivedDate ≤ left.receivedDate :=
    fun list => List.map_insertionSort _ _ _ _ fun _ _ _ _ => Iff.rfl
  simp only [prefetchWindow]
  split
  · rw [List.map_take, List.map_take, sorted, sorted, same]
  · rw [sorted, sorted, same]

theorem ids_eq (mails : List StoredMail) : ids mails = (mails.map StoredMail.mail).filterMap Mail.elementId := by
  rw [ids, List.filterMap_map]
  rfl

theorem windowIds_eq {before after : MailStore} (same : MailStore.SameListing before after)
    (limit : Nat) (folderId : String) : windowIds limit after folderId = windowIds limit before folderId := by
  rw [windowIds, windowIds, ids_eq, ids_eq, map_prefetchWindow (same.mails folderId)]

/-- A folder has the mails of its window. -/
theorem mem_ids_getFolder {limit : Nat} {store : MailStore} {folderId elementId : String}
    (mem : elementId ∈ windowIds limit store folderId) : elementId ∈ ids (store.getFolder folderId) := by
  obtain ⟨stored, inWindow, identified⟩ := List.mem_filterMap.mp mem
  refine List.mem_filterMap.mpr ⟨stored, ?_, identified⟩
  unfold prefetchWindow at inWindow
  dsimp only at inWindow
  split at inWindow
  · exact List.mem_insertionSort _ |>.mp (List.mem_of_mem_take inWindow)
  · exact List.mem_insertionSort _ |>.mp inWindow

theorem mailInFolder_ne_none {store : MailStore} {folderId elementId : String}
    (mem : elementId ∈ ids (store.getFolder folderId)) : store.mailInFolder folderId elementId ≠ none := by
  obtain ⟨stored, inFolder, identified⟩ := List.mem_filterMap.mp mem
  intro missing
  have different := List.find?_eq_none.mp missing stored inFolder
  exact different (decide_eq_true identified)

/-! ## A sweep -/

/-- The folders a sweep is still to come to. -/
def toCome : LoopPhase → List FolderInfo
  | .sweeping rest | .passing _ _ rest => rest
  | _ => []

/-- The mails of a folder that the pass over it is still to deal with. -/
def pendingIn (folder : FolderInfo) : LoopPhase → List String
  | .passing passed pass _ => if passed = folder then pending pass else []
  | _ => []

/-- The mail whose body the loop tries to get. -/
def attempted : LoopPhase → Option String
  | .passing _ pass _ => pass.attempt
  | _ => none

def isSweep : LoopPhase → Bool
  | .sweeping _ | .passing _ _ _ => true
  | _ => false

/-- What a sweep has done if no folder changed since it began: a mail it dealt with has a
deadline that was ahead then, and of the folders it went through there is no mail in the
window that it did not deal with or has not still to. -/
structure Swept (limit : Nat) (loop : PrefetchLoop) : Prop where
  ahead : ∀ elementId at_ retry, loop.dealtAt.get? elementId = some at_ →
    loop.prefetcher.history.get? elementId = some retry → attempted loop.phase ≠ some elementId →
    at_ < retry.nextAttempt
  covered : ∀ folder ∈ loop.world.store.folderList, folder ∉ toCome loop.phase →
    ∀ elementId ∈ windowIds limit loop.world.store folder.id,
      (loop.dealtAt.get? elementId).isSome ∨ elementId ∈ pendingIn folder loop.phase
  present : ∀ folder, ∀ elementId ∈ pendingIn folder loop.phase,
    elementId ∈ ids (loop.world.store.getFolder folder.id)

/-- The invariant of the loop, in which every step of another task counts as a change it can
see. -/
structure Sweeps (limit : Nat) (loop : PrefetchLoop) : Prop where
  counted : loop.world.store.Counted
  seen : loop.seen ≤ loop.world.store.generation
  swept : isSweep loop.phase = true → loop.seen = loop.world.store.generation → Swept limit loop

section Sweep

variable {env : Env} {limit : Nat} {loop : PrefetchLoop}

theorem Swept.of_sameListing (swept : Swept limit loop)
    (same : MailStore.SameListing loop.world.store world.store) :
    Swept limit (loop.setWorld world) where
  ahead := swept.ahead
  covered folder listed passed elementId mem := by
    have before : folder ∈ loop.world.store.folderList := by
      rw [← same.folderList]
      exact listed
    refine swept.covered folder before passed elementId ?_
    rw [← windowIds_eq same]
    exact mem
  present folder elementId mem := by
    have before := swept.present folder elementId mem
    rw [ids_eq] at before ⊢
    show elementId ∈ ((world.store.getFolder folder.id).map StoredMail.mail).filterMap Mail.elementId
    rw [same.mails]
    exact before

/-- Another task changes what the folders list, and draws a generation, or it does not. -/
theorem Sweeps.setWorld (sweeps : Sweeps limit loop)
    (watched : MailStore.Watched loop.world.store world.store) (counted : world.store.Counted) :
    Sweeps limit (loop.setWorld world) := by
  refine ⟨counted, ?_, fun isSweep unchanged => ?_⟩
  · obtain drawn | same := watched
    · exact Nat.le_trans sweeps.seen (Nat.le_of_lt drawn)
    · exact Nat.le_trans sweeps.seen (Nat.le_of_eq same.generation.symm)
  · obtain drawn | same := watched
    · have later := Nat.lt_of_le_of_lt sweeps.seen drawn
      exact absurd unchanged (Nat.ne_of_lt later)
    · exact (sweeps.swept isSweep (unchanged.trans same.generation)).of_sameListing same

/-- Out of a sweep nothing has to hold but the count of generations. -/
theorem Sweeps.outside (sweeps : Sweeps limit loop) {phase : LoopPhase} (outside : isSweep phase = false) :
    Sweeps limit { loop with phase := phase } :=
  ⟨sweeps.counted, sweeps.seen, fun inside => by rw [outside] at inside; cases inside⟩

/-- A sweep begins with every folder to come and nothing dealt with. -/
theorem swept_begin : Swept limit
    { loop with phase := .sweeping loop.world.store.folderList, dealtAt := .empty } where
  ahead elementId _ _ dealt _ _ := by cases dealt
  covered folder listed passed := absurd listed passed
  present _ _ mem := by cases mem

/-- A pass begins with the window of its folder. -/
theorem Swept.enter (swept : Swept limit { loop with phase := .sweeping (folder :: rest) }) :
    Swept limit { loop with
      phase := .passing folder
        (.scanning (prefetchWindow (loop.world.store.getFolder folder.id) limit)) rest } where
  ahead elementId at_ retry dealt entry _ :=
    swept.ahead elementId at_ retry dealt entry (Option.some_ne_none _).symm
  covered other listed passed elementId mem := by
    by_cases same : folder = other
    · subst same
      refine .inr ?_
      rw [pendingIn, if_pos rfl]
      exact mem
    · have notToCome : other ∉ folder :: rest := fun isToCome =>
        (List.mem_cons.mp isToCome).elim (fun isFolder => same isFolder.symm) passed
      obtain dealt | nothing := swept.covered other listed notToCome elementId mem
      · exact .inl dealt
      · cases nothing
  present other elementId mem := by
    rw [pendingIn] at mem
    split at mem
    next same =>
      rw [← same]
      exact mem_ids_getFolder mem
    next => cases mem

/-- A pass that has dealt with its window is over. -/
theorem Swept.leave {pass : PrefetchPhase}
    (swept : Swept limit { loop with phase := .passing folder pass rest })
    (nothing : pending pass = []) : Swept limit { loop with phase := .sweeping rest } where
  ahead elementId at_ retry dealt entry _ := by
    have noAttempt : pass.attempt = none := by
      cases attempt : pass.attempt with
      | none => rfl
      | some other =>
        rw [pending, attempt] at nothing
        cases nothing
    refine swept.ahead elementId at_ retry dealt entry ?_
    rw [attempted, noAttempt]
    exact (Option.some_ne_none _).symm
  covered other listed passed elementId mem := by
    obtain dealt | later := swept.covered other listed passed elementId mem
    · exact .inl dealt
    · rw [pendingIn, nothing, ite_self] at later
      cases later
  present _ _ mem := by cases mem

theorem about_of_attempt {pass : PrefetchPhase}
    (attempt : pass.attempt = some elementId) : pass.about = some elementId := by
  cases pass with
  | scanning window => cases attempt
  | _ => exact attempt

/-- When the piece of a pass notes that it dealt with its mail. -/
def dealt (dealtAt : Dict String Nat) (about : Option String) (now : Nat) : Dict String Nat :=
  match about with
  | none => dealtAt
  | some elementId => dealtAt.set elementId now

theorem get?_dealt (dealtAt : Dict String Nat) (about : Option String) (now : Nat) (elementId : String) :
    (dealt dealtAt about now).get? elementId =
      if about = some elementId then some now else dealtAt.get? elementId := by
  cases about with
  | none => rfl
  | some other =>
    rw [dealt, Dict.get?_set]
    by_cases same : elementId = other
    · rw [if_pos same, if_pos (congrArg some same.symm)]
    · rw [if_neg same, if_neg fun equal => same (Option.some.inj equal).symm]

/-- A piece of a pass, in a folder that has every mail the pass is still to deal with. -/
theorem Swept.pass {pass later : PrefetchPhase}
    {next : Prefetcher} (swept : Swept limit { loop with phase := .passing folder pass rest })
    (stepped : prefetchStep env folder loop.prefetcher pass = some (next, later)) :
    Swept limit { loop with
      prefetcher := next
      phase := .passing folder later rest
      dealtAt := dealt loop.dealtAt pass.about (env.now next.world.tick) } := by
  obtain ⟨isPending, attempts, others, settles⟩ := passStep stepped
  have same : MailStore.SameListing loop.world.store next.world.store :=
    (sameListing_prefetchStep stepped).1
  have inFolder : ∀ elementId ∈ pending pass, elementId ∈ ids (next.world.store.getFolder folder.id) := by
    intro elementId mem
    have before := swept.present folder elementId (by rw [pendingIn, if_pos rfl]; exact mem)
    rw [ids_eq] at before ⊢
    rw [same.mails]
    exact before
  have stillPending : ∀ elementId ∈ pending later, elementId ∈ pending pass := by
    intro elementId mem
    rw [isPending]
    obtain isAttempt | queued := List.mem_append.mp mem
    · exact List.mem_append_left _ (Option.mem_toList.mpr (attempts elementId (Option.mem_toList.mp isAttempt)))
    · exact List.mem_append_right _ queued
  constructor
  · intro elementId at_ retry isDealt entry noAttempt
    rw [get?_dealt] at isDealt
    split at isDealt
    next isAbout =>
      rw [← Option.some.inj isDealt]
      have ended : later.attempt = none := by
        cases attempt : later.attempt with
        | none => rfl
        | some other =>
          have isOther := attempts other attempt
          rw [isAbout] at isOther
          rw [attempted, attempt, isOther] at noAttempt
          exact absurd rfl noAttempt
      obtain missing | isAhead := settles elementId isAbout ended
      · have mem : elementId ∈ pending pass := by
          rw [isPending, isAbout]
          exact List.mem_cons_self
        have held := swept.present folder elementId (by rw [pendingIn, if_pos rfl]; exact mem)
        exact absurd missing (mailInFolder_ne_none held)
      · exact isAhead retry entry
    next isOther =>
      rw [others elementId isOther] at entry
      exact swept.ahead elementId at_ retry isDealt entry fun attempt =>
        isOther (about_of_attempt attempt)
  · intro other listed passed elementId mem
    have before : other ∈ loop.world.store.folderList := by
      rw [← same.folderList]
      exact listed
    have inWindow : elementId ∈ windowIds limit loop.world.store other.id := by
      rw [← windowIds_eq same]
      exact mem
    rw [get?_dealt]
    obtain wasDealt | wasPending := swept.covered other before passed elementId inWindow
    · refine .inl ?_
      split
      · rfl
      · exact wasDealt
    · rw [pendingIn] at wasPending ⊢
      split at wasPending
      next isFolder =>
        rw [if_pos isFolder]
        rw [isPending] at wasPending
        obtain isAbout | queued := List.mem_append.mp wasPending
        · refine .inl ?_
          rw [if_pos (Option.mem_toList.mp isAbout)]
          rfl
        · exact .inr (List.mem_append_right _ queued)
      next => cases wasPending
  · intro other elementId mem
    rw [pendingIn] at mem
    split at mem
    next isFolder =>
      rw [← isFolder]
      exact inFolder elementId (stillPending elementId mem)
    next => cases mem

theorem pending_of_ended {state : Prefetcher} {pass : PrefetchPhase}
    (ended : prefetchStep env folder state pass = none) : pending pass = [] := by
  cases pass with
  | scanning window =>
    cases window with
    | nil => rfl
    | cons stored rest =>
      simp only [prefetchStep] at ended
      repeat' split at ended
      all_goals cases ended
  | _ =>
    simp only [prefetchStep] at ended
    repeat' split at ended
    all_goals cases ended

/-- One piece of the loop. -/
theorem Sweeps.advance (sweeps : Sweeps limit loop) (byTimer : Bool) :
    Sweeps limit (loop.advance env limit byTimer) := by
  unfold PrefetchLoop.advance
  split
  next => exact ⟨sweeps.counted, Nat.le_refl _, fun inside => by cases inside⟩
  next =>
    split
    next => exact sweeps.outside rfl
    next => exact ⟨sweeps.counted, sweeps.seen, fun _ _ => swept_begin⟩
  next => exact sweeps.outside rfl
  next folder rest phase =>
    split
    next => exact sweeps.outside rfl
    next =>
      refine ⟨sweeps.counted, sweeps.seen, fun _ unchanged => Swept.enter ?_⟩
      rw [← phase]
      exact sweeps.swept (by rw [phase]; rfl) unchanged
  next folder pass rest phase =>
    have swept : loop.seen = loop.world.store.generation →
        Swept limit { loop with phase := .passing folder pass rest } := by
      intro unchanged
      rw [← phase]
      exact sweeps.swept (by rw [phase]; rfl) unchanged
    split
    next ended =>
      refine ⟨sweeps.counted, sweeps.seen, fun _ unchanged => (swept unchanged).leave ?_⟩
      exact pending_of_ended ended
    next next later stepped =>
      have same : MailStore.SameListing loop.world.store next.world.store :=
        (sameListing_prefetchStep stepped).1
      refine ⟨(sameListing_prefetchStep stepped).2 sweeps.counted, ?_, fun _ unchanged => ?_⟩
      · exact Nat.le_trans sweeps.seen (Nat.le_of_eq same.generation.symm)
      · exact (swept (unchanged.trans same.generation)).pass stepped
  next timer phase =>
    dsimp only
    split
    next => exact sweeps.outside rfl
    next =>
      split
      next => exact sweeps.outside rfl
      next =>
        split
        next => exact ⟨sweeps.counted, Nat.le_refl _, fun inside => by cases inside⟩
        next =>
          split
          next => exact sweeps.outside rfl
          next => exact sweeps
  next => exact sweeps

theorem Sweeps.step (sweeps : Sweeps limit loop) (label : LoopLabel) : Sweeps limit (loop.step env limit label) := by
  cases label with
  | loop byTimer => exact sweeps.advance byTimer
  | store op =>
    exact sweeps.setWorld (MailStore.watched_apply op sweeps.counted)
      (MailStore.counted_apply op sweeps.counted)
  | disk localStore => exact sweeps.setWorld (.inr (.refl _)) sweeps.counted
  | elapse ticks => exact sweeps.setWorld (.inr (.refl _)) sweeps.counted
  | shutdown => exact ⟨sweeps.counted, sweeps.seen, fun inside unchanged =>
    ⟨(sweeps.swept inside unchanged).ahead, (sweeps.swept inside unchanged).covered,
      (sweeps.swept inside unchanged).present⟩⟩

/-- Every run keeps the invariant. -/
theorem sweeps_run (env : Env) (limit : Nat) (localStore : LocalStore) (labels : List LoopLabel) :
    Sweeps limit (PrefetchLoop.run env limit localStore labels) := by
  rw [PrefetchLoop.run]
  induction labels using List.reverseRecOn with
  | nil => exact ⟨Nat.le_refl _, Nat.le_refl _, fun inside => by cases inside⟩
  | append_singleton labels label ih =>
    rw [List.foldl_append]
    exact ih.step label

end Sweep

/-! ## Before the loop waits -/

/-- No failed mail is forgotten where the loop goes to wait. -/
def Remembers (env : Env) (limit : Nat) (loop : PrefetchLoop) : Prop :=
  loop.GoesToWait env → ∀ folder stored elementId retry,
    ¬ loop.AwaitsRetry limit folder stored elementId retry

/-- The deadline of a mail was ahead when the sweep last dealt with the mail, and is not any
more. -/
def FellDue (env : Env) (loop : PrefetchLoop) (elementId : String) (retry : AttachmentRetry) : Prop :=
  ∃ at_, loop.dealtAt.get? elementId = some at_ ∧ at_ < retry.nextAttempt ∧ retry.nextAttempt ≤ loop.now env

/-- Where the loop goes to wait, the deadline of each mail that awaits its retry fell due after
the sweep had dealt with the mail. -/
theorem fellDue_of_awaits {env : Env} {limit : Nat} {loop : PrefetchLoop} (sweeps : Sweeps limit loop)
    (waits : loop.GoesToWait env) {stored : StoredMail}
    {retry : AttachmentRetry} (awaits : loop.AwaitsRetry limit folder stored elementId retry) :
    FellDue env loop elementId retry := by
  have swept := sweeps.swept (by rw [waits.swept]; rfl) waits.unchanged
  have inWindow : elementId ∈ windowIds limit loop.world.store folder.id :=
    List.mem_filterMap.mpr ⟨stored, awaits.inWindow, awaits.identified⟩
  have passed : folder ∉ toCome loop.phase := by
    rw [waits.swept]
    exact List.not_mem_nil
  obtain isDealt | isPending := swept.covered folder awaits.listed passed elementId inWindow
  · obtain ⟨at_, dealtAt⟩ := Option.isSome_iff_exists.mp isDealt
    refine ⟨at_, dealtAt, swept.ahead elementId at_ retry dealtAt awaits.entry ?_, ?_⟩
    · rw [waits.swept]
      exact (Option.some_ne_none _).symm
    · exact le_of_nextAttachmentRetry waits.unarmed awaits.entry
  · rw [waits.swept] at isPending
    cases isPending

/-- In every run of the loop, a failed mail is remembered where the loop goes to wait if and
only if no mail that awaits its retry has a deadline that fell due between the last time the
sweep dealt with it and the end of the sweep. -/
theorem remembers_iff (env : Env) (limit : Nat) (localStore : LocalStore) (labels : List LoopLabel) :
    Remembers env limit (PrefetchLoop.run env limit localStore labels) ↔
      ((PrefetchLoop.run env limit localStore labels).GoesToWait env → ∀ folder stored elementId retry,
          (PrefetchLoop.run env limit localStore labels).AwaitsRetry limit folder stored elementId retry →
          ¬ FellDue env (PrefetchLoop.run env limit localStore labels) elementId retry) := by
  constructor
  · intro remembers waits folder stored elementId retry awaits
    exact absurd awaits (remembers waits folder stored elementId retry)
  · intro inTime waits folder stored elementId retry awaits
    exact inTime waits folder stored elementId retry awaits
      (fellDue_of_awaits (sweeps_run env limit localStore labels) waits awaits)

/-! ## A slow sweep -/

/-- A server that is slow, 70 seconds for each answer, and fails on the details of `first`. -/
def slowEnv : Env :=
  { quietEnv { servingBackend [] [] with
      loadMailDetails := fun _ mail =>
        if mail.elementId = some "first" then .error "failed" else .ok none } with
    now := fun tick => tick * 70000 }

/-- Two mails in one folder, a sweep that fails on the first and gets the second. -/
def slowSweep : List LoopLabel :=
  [.store (.setFolderList [sampleFolder "inbox" "entries"]),
    .store (.setFolder "inbox" [sampleStored "first" 1, sampleStored "second" 2])] ++
    List.replicate 22 (.loop false)

/-- The first mail's deadline is past when the sweep is over, and no timer is armed. -/
theorem slow_sweep_forgets : ¬ ∀ (env : Env) (limit : Nat) (localStore : LocalStore) (labels : List LoopLabel),
        Remembers env limit (PrefetchLoop.run env limit localStore labels) := by
  intro claim
  have waits : (PrefetchLoop.run slowEnv 0 .blank slowSweep).GoesToWait slowEnv :=
    ⟨by rfl, by decide +kernel, by decide +kernel⟩
  refine claim slowEnv 0 .blank slowSweep waits (sampleFolder "inbox" "entries")
    (sampleStored "first" 1) "first" ⟨1, 340000⟩ ⟨?_, ?_, rfl, ?_, ?_⟩
  · decide +kernel
  · decide +kernel
  · decide +kernel
  · decide +kernel

end TutaBridge.Runs
