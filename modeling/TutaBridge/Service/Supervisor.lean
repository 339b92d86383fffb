import Mathlib.Algebra.Group.Nat.Defs
import Mathlib.Data.List.DropRight
import TutaBridge.Std.Guarded

/-!
# The supervisor

`supervise` starts a worker process under the volume lock, waits for what comes of it and
tries again. A worker that Tuta rejected is not started again before the saved session has
changed, and one that is too old is not started again at all. What the surroundings answer
in a round of the loop is an `Attempt`; the log and the status that is served are left out.
-/

namespace TutaBridge.Service

open TutaBridge.Std

/-! ## The policy -/

/-- `State`, in which the supervisor waits. -/
inductive State where
  | configuration
  | session
  | storage
  | rejected
  | version
  | occupied
  | starting
  | network
  | failed
  | stopping
  | initialization
deriving DecidableEq, Repr

namespace State

/-- `State as i32`. -/
def code : State → Int
  | .configuration => 10
  | .session => 11
  | .storage => 12
  | .rejected => 13
  | .version => 14
  | .occupied => 15
  | .starting => 16
  | .network => 17
  | .failed => 18
  | .stopping => 19
  | .initialization => 20

/-- `reason`. -/
def reason : State → String
  | .configuration =>
    "Waiting for configuration; run tutabridge init (Docker: docker exec -it <container> init)"
  | .session =>
    "Waiting for a saved session; run tutabridge init (Docker: docker exec -it <container> init)"
  | .storage => "Session storage unavailable; check volume permissions, GPG key and pass store"
  | .rejected => "Saved session rejected; run tutabridge init (existing entry preserved)"
  | .version =>
    "Tuta rejects this version; update the image: docker compose pull && docker compose up -d"
  | .occupied => "Data volume occupied by another init or service"
  | .starting => "Starting IMAP and SMTP"
  | .network => "Tuta temporarily unavailable; retrying with backoff"
  | .failed => "Service failed; inspect startup diagnostics"
  | .stopping => "Stopping"
  | .initialization =>
    "Initialization failed or cancelled; inspect diagnostics and saved session state"

/-- `from_code`. -/
def fromCode (code : Int) : State :=
  if code = 10 then .configuration
  else if code = 11 then .session
  else if code = 12 then .storage
  else if code = 13 then .rejected
  else if code = 14 then .version
  else if code = 17 then .network
  else if code = 20 then .initialization
  else .failed

end State

/-- `session_fingerprint`. -/
abbrev Fingerprint := Option (List UInt8)

namespace State

/-- `awaits_repair`. -/
def awaitsRepair (state : State) (previous current : Fingerprint) : Bool :=
  state = .version || state = .rejected && previous = current

/-- `POLL_DELAY`, in seconds. -/
def pollDelay : Nat := 10

/-- `MAX_BACKOFF`, in seconds. -/
def maxBackoff : Nat := 300

/-- The states that are retried with a backoff. -/
def isTransient (state : State) : Bool := state = .failed || state = .network

/-- `retry_delay`: this wait and the backoff for the next attempt. -/
def retryDelay (state : State) (backoff : Nat) : Nat × Nat :=
  if state.isTransient then (backoff, min (backoff * 2) maxBackoff) else (pollDelay, pollDelay)

end State

/-! ## The worker -/

/-- What comes of `worker`. Only an init takes a terminal. A process that runs ends on its
own or is stopped, and `none` is its exit code when a signal ended it. It is `lost` when it
was killed and cannot be waited for. -/
inductive WorkerRun where
  | unprepared (kind : String)
  | noTerminal
  | unlaunched (kind : String)
  | ran (exit : Option Int) (stopped : Bool) (diagnostic : String)
  | lost (message : String)
deriving DecidableEq, Repr

namespace WorkerRun

/-- A worker process was started. -/
def started : WorkerRun → Bool
  | .ran .. | .lost _ => true
  | _ => false

/-- What `worker` returns. -/
def result (init : Bool) : WorkerRun → Except String (Option (Int × String))
  | .unprepared kind =>
    .ok (some (State.failed.code, "Cannot prepare worker (" ++ kind ++ "); retrying"))
  | .noTerminal =>
    .ok (some (State.initialization.code, "Interactive init requires a foreground terminal"))
  | .unlaunched kind =>
    .ok (some (State.failed.code, "Cannot launch worker (" ++ kind ++ "); retrying"))
  | .ran exit stopped diagnostic =>
    if stopped && !(init && exit = some 0) then .ok none
    else .ok (some (exit.getD (if init then State.initialization.code else State.failed.code), diagnostic))
  | .lost message => .error message

/-- The state a worker process ended with. -/
def endedWith (init : Bool) (run : WorkerRun) : Option State :=
  if run.started then
    match run.result init with
    | .ok (some (code, _)) => some (State.fromCode code)
    | _ => none
  else none

end WorkerRun

/-! ## The loop -/

/-- What `Lock::acquire` comes to. -/
inductive Acquired where
  | held
  | occupied
  | error (kind : String)
deriving DecidableEq, Repr

/-- What the surroundings answer in a round: whether the supervisor is to stop, at the three
places it looks, the lock, the saved session and the worker. -/
structure Attempt where
  stopping : Bool
  acquired : Acquired
  stoppedAcquiring : Bool
  fingerprint : Fingerprint
  worker : WorkerRun
  stoppedWaiting : Bool
deriving DecidableEq, Repr

/-- What the loop keeps from round to round. -/
structure Loop where
  blocked : Option (State × Fingerprint)
  backoff : Nat
deriving DecidableEq, Repr

/-- The loop at its start. -/
def Loop.start : Loop := ⟨none, State.pollDelay⟩

/-- How the loop goes on. -/
inductive Next where
  | again (loop : Loop)
  | ends (result : Except String Unit)

/-- What an observer of the volume lock, of the processes and of the clock sees. A worker
ends with a state when the supervisor learns how it ended. -/
inductive Event where
  | locked
  | saw (fingerprint : Fingerprint)
  | started
  | ended (state : Option State)
  | unlocked
  | waited (result : State) (seconds : Nat)
deriving DecidableEq, Repr

/-- What `worker` shows. It returns after the process has ended. -/
def WorkerRun.events (init : Bool) (run : WorkerRun) : List Event :=
  if run.started then [.started, .ended (run.endedWith init)] else []

/-- A reason with its detail. -/
def explain (result : State) (detail : String) : String :=
  result.reason ++ (if detail = "" then "" else ": ") ++ detail

/-- The end of a round, when no lock is held any more. -/
def settle (waiting : Bool) (loop : Loop) (attempt : Attempt) (events : List Event) (result : State)
    (detail : String) : List Event × Next :=
  if !waiting then (events, .ends (.error (explain result detail)))
  else
    let delays := result.retryDelay loop.backoff
    (events ++ [.waited result delays.1],
      if attempt.stoppedWaiting then .ends (.ok ()) else .again { loop with backoff := delays.2 })

/-- What an early stop returns. -/
def stopped (init : Bool) : Except String Unit :=
  if init then .error State.initialization.reason else .ok ()

/-- The worker of a round that is not blocked, under the lock. -/
def work (init waiting : Bool) (loop : Loop) (attempt : Attempt) : List Event × Next :=
  let events := [.locked, .saw attempt.fingerprint] ++ attempt.worker.events init ++ [.unlocked]
  match attempt.worker.result init with
  | .error message => (events, .ends (.error message))
  | .ok none => (events, .ends (stopped init))
  | .ok (some (code, detail)) =>
    if code = 0 then (events, .ends (.ok ()))
    else
      let result := State.fromCode code
      let loop :=
        if result = .rejected ∨ result = .version then
          { loop with blocked := some (result, attempt.fingerprint) }
        else loop
      settle waiting loop attempt events result detail

/-- A round of `supervise`. -/
def iterate (init waiting : Bool) (loop : Loop) (attempt : Attempt) : List Event × Next :=
  if attempt.stopping then ([], .ends (stopped init))
  else if init && attempt.stoppedAcquiring then
    (if attempt.acquired = .held then [.locked, .unlocked] else [], .ends (stopped init))
  else
    match attempt.acquired with
    | .occupied => settle waiting loop attempt [] .occupied ""
    | .error kind =>
      settle waiting loop attempt [] .storage ("Cannot acquire volume lock (" ++ kind ++ ")")
    | .held =>
      match loop.blocked.filter fun reason => reason.1.awaitsRepair reason.2 attempt.fingerprint with
      | some (reason, _) =>
        settle waiting loop attempt [.locked, .saw attempt.fingerprint, .unlocked] reason ""
      | none => work init waiting loop attempt

/-- The events of the rounds of `supervise`, until it returns. -/
def rounds (init waiting : Bool) : Loop → List Attempt → List (List Event)
  | _, [] => []
  | loop, attempt :: rest =>
    let done := iterate init waiting loop attempt
    done.1 :: match done.2 with
      | .again loop => rounds init waiting loop rest
      | .ends _ => []

/-! ## What a round can do -/

/-- The events of a wait, or none when the round has no wait. -/
def IsWait (events : List Event) : Prop := events = [] ∨ ∃ result seconds, events = [.waited result seconds]

section Round

variable {init waiting : Bool} {loop : Loop} {attempt : Attempt}

theorem settle_events (waiting : Bool) (loop : Loop) (attempt : Attempt) (events : List Event)
    (result : State) (detail : String) :
    ∃ wait, IsWait wait ∧ (settle waiting loop attempt events result detail).1 = events ++ wait := by
  rw [settle]
  split
  · exact ⟨[], .inl rfl, (List.append_nil _).symm⟩
  · exact ⟨_, .inr ⟨_, _, rfl⟩, rfl⟩

theorem blocked_settle {events : List Event} {result : State} {detail : String} {next : Loop}
    (again : (settle waiting loop attempt events result detail).2 = .again next) : next.blocked = loop.blocked := by
  rw [settle] at again
  split at again
  · cases again
  · dsimp only at again
    split at again
    · cases again
    · cases again
      rfl

/-- A worker lives between the lock and its release, and blocks the loop when it ends
rejected or too old. -/
theorem work_spec (init waiting : Bool) (loop : Loop) (attempt : Attempt) : (∃ wait, IsWait wait ∧
      (work init waiting loop attempt).1 =
        .locked :: .saw attempt.fingerprint :: (attempt.worker.events init ++ .unlocked :: wait)) ∧
    ∀ next, (work init waiting loop attempt).2 = .again next →
      next.blocked =
        match attempt.worker.result init with
        | .ok (some (code, _)) =>
          if State.fromCode code = .rejected ∨ State.fromCode code = .version then
            some (State.fromCode code, attempt.fingerprint)
          else loop.blocked
        | _ => loop.blocked := by
  rw [work]
  split
  · exact ⟨⟨[], .inl rfl, rfl⟩, fun _ again => by cases again⟩
  · exact ⟨⟨[], .inl rfl, rfl⟩, fun _ again => by cases again⟩
  · rename_i code detail result
    split
    · exact ⟨⟨[], .inl rfl, rfl⟩, fun _ again => by cases again⟩
    · dsimp only
      refine ⟨?_, fun next again => ?_⟩
      · obtain ⟨wait, isWait, shape⟩ := settle_events waiting
          (if State.fromCode code = .rejected ∨ State.fromCode code = .version then
            { loop with blocked := some (State.fromCode code, attempt.fingerprint) } else loop)
          attempt ([.locked, .saw attempt.fingerprint] ++ attempt.worker.events init ++ [.unlocked])
          (State.fromCode code) detail
        exact ⟨wait, isWait, by rw [shape]; simp⟩
      · rw [blocked_settle again, result]
        dsimp only
        split <;> rfl

/-- A round stops early, waits without a worker, or has a worker when nothing blocks it. -/
theorem iterate_cases (init waiting : Bool) (loop : Loop) (attempt : Attempt) :
    (∃ events result, iterate init waiting loop attempt = (events, .ends result) ∧
      (events = [] ∨ events = [.locked, .unlocked])) ∨
    (∃ events result detail, iterate init waiting loop attempt = settle waiting loop attempt events result detail ∧
      (events = [] ∨ events = [.locked, .saw attempt.fingerprint, .unlocked])) ∨
    ((∀ reason previous, loop.blocked = some (reason, previous) →
        reason.awaitsRepair previous attempt.fingerprint = false) ∧
      iterate init waiting loop attempt = work init waiting loop attempt) := by
  rw [iterate]
  split
  · exact .inl ⟨_, _, rfl, .inl rfl⟩
  · split
    · refine .inl ⟨_, _, rfl, ?_⟩
      split
      · exact .inr rfl
      · exact .inl rfl
    · split
      · exact .inr (.inl ⟨_, _, _, rfl, .inl rfl⟩)
      · exact .inr (.inl ⟨_, _, _, rfl, .inl rfl⟩)
      · split
        next reason previous waits => exact .inr (.inl ⟨_, _, _, rfl, .inr rfl⟩)
        next nothing =>
          refine .inr (.inr ⟨fun reason previous blocked => ?_, rfl⟩)
          rw [blocked, Option.filter_eq_none_iff] at nothing
          simpa using nothing _ rfl

end Round

/-! ## What blocks a worker -/

/-- The round sees, under the lock, that the reason for blocking is gone. -/
def Repairs (reason : State) (previous : Fingerprint) (round : List Event) : Prop :=
  ∃ current before after, round = .locked :: .saw current :: (before ++ .unlocked :: after) ∧
    reason.awaitsRepair previous current = false

section Blocked

variable {init waiting : Bool} {loop : Loop} {attempt : Attempt} {reason : State}
  {previous : Fingerprint}

theorem not_mem_of_isWait {events wait : List Event} {event : Event} (isWait : IsWait wait)
    (noWait : ∀ result seconds, event ≠ .waited result seconds) (absent : event ∉ events) :
    event ∉ events ++ wait := by
  rcases isWait with rfl | ⟨result, seconds, rfl⟩
  · rwa [List.append_nil]
  · simp [absent, noWait]

/-- A round that runs no worker has the events before its wait and the wait. -/
theorem not_mem_settle {events : List Event} {result : State} {detail : String} {event : Event}
    (noWait : ∀ result seconds, event ≠ .waited result seconds) (absent : event ∉ events) :
    event ∉ (settle waiting loop attempt events result detail).1 := by
  obtain ⟨wait, isWait, ends⟩ := settle_events waiting loop attempt events result detail
  rw [ends]
  exact not_mem_of_isWait isWait noWait absent

/-- A loop that is blocked starts no worker and stays blocked, unless the round sees that
the reason is gone. -/
theorem blocked_iterate (blocked : loop.blocked = some (reason, previous)) :
    Repairs reason previous (iterate init waiting loop attempt).1 ∨ .started ∉ (iterate init waiting loop attempt).1 ∧
        ∀ next, (iterate init waiting loop attempt).2 = .again next → next.blocked = some (reason, previous) := by
  rcases iterate_cases init waiting loop attempt with
    ⟨events, result, early, shape⟩ | ⟨events, result, detail, settles, shape⟩ | ⟨free, works⟩
  · rw [early]
    refine .inr ⟨?_, fun _ again => by cases again⟩
    rcases shape with rfl | rfl <;> simp
  · rw [settles]
    refine .inr ⟨not_mem_settle (by simp) ?_, fun next again => (blocked_settle again).trans blocked⟩
    rcases shape with rfl | rfl <;> simp
  · rw [works]
    obtain ⟨⟨wait, -, shape⟩, -⟩ := work_spec init waiting loop attempt
    exact .inl ⟨_, _, _, shape, free reason previous blocked⟩

theorem mem_events_worker {init : Bool} {run : WorkerRun} {state : Option State}
    (ended : .ended state ∈ run.events init) : state = run.endedWith init := by
  rw [WorkerRun.events] at ended
  split at ended
  · simpa using ended
  · exact absurd ended List.not_mem_nil

/-- A worker that ends rejected or too old blocks the loop with the fingerprint that was
seen. -/
theorem blocks_iterate {result : State} (bars : result = .rejected ∨ result = .version)
    (ended : .ended (some result) ∈ (iterate init waiting loop attempt).1)
    (saw : .saw previous ∈ (iterate init waiting loop attempt).1) {next : Loop}
    (again : (iterate init waiting loop attempt).2 = .again next) : next.blocked = some (result, previous) := by
  rcases iterate_cases init waiting loop attempt with
    ⟨events, answer, early, shape⟩ | ⟨events, answer, detail, settles, shape⟩ | ⟨-, works⟩
  · rw [early] at again
    cases again
  · rw [settles] at ended
    refine absurd ended (not_mem_settle (by simp) ?_)
    rcases shape with rfl | rfl <;> simp
  · obtain ⟨⟨wait, isWait, shape⟩, blocks⟩ := work_spec init waiting loop attempt
    rw [works] at ended saw again
    rw [shape] at ended saw
    have blocked := blocks next again
    have noWait : ∀ event : Event, (∀ result seconds, event ≠ .waited result seconds) → event ∉ wait := by
      intro event different
      simpa using not_mem_of_isWait isWait different List.not_mem_nil
    have worker : .ended (some result) ∈ attempt.worker.events init := by
      simpa [noWait] using ended
    have same : previous = attempt.fingerprint := by
      have notWorker : .saw previous ∉ attempt.worker.events init := by
        rw [WorkerRun.events]
        split <;> simp
      simpa [noWait, notWorker] using saw
    have reported := mem_events_worker worker
    rw [WorkerRun.endedWith] at reported
    split at reported
    · split at reported
      · rename_i code detail returned
        rw [returned] at blocked
        cases reported
        rw [blocked, same]
        exact if_pos bars
      · cases reported
    · cases reported

end Blocked

/-! ## Runs -/

section Runs

variable {init waiting : Bool}

/-- The rounds from one of them on are those of the loop it goes on with. -/
theorem rounds_split {loop : Loop} {attempts : List Attempt} {before later : List (List Event)}
    {round : List Event} (split : rounds init waiting loop attempts = before ++ round :: later) :
    ∃ here attempt rest, round = (iterate init waiting here attempt).1 ∧
      (later = [] ∨ ∃ next, (iterate init waiting here attempt).2 = .again next ∧
        later = rounds init waiting next rest) := by
  induction attempts generalizing loop before with
  | nil => exact absurd split.symm (List.append_ne_nil_of_right_ne_nil _ (List.cons_ne_nil _ _))
  | cons attempt rest ih =>
    rw [rounds] at split
    cases before with
    | nil =>
      obtain ⟨rfl, rfl⟩ := List.cons.inj split
      refine ⟨loop, attempt, rest, rfl, ?_⟩
      cases (iterate init waiting loop attempt).2 with
      | again next => exact .inr ⟨next, rfl, rfl⟩
      | ends result => exact .inl rfl
    | cons first before =>
      obtain ⟨-, shorter⟩ := List.cons.inj split
      cases goesOn : (iterate init waiting loop attempt).2 with
      | again next =>
        rw [goesOn] at shorter
        exact ih shorter
      | ends result =>
        rw [goesOn] at shorter
        exact absurd shorter.symm (List.append_ne_nil_of_right_ne_nil _ (List.cons_ne_nil _ _))

/-- While a loop is blocked, a round that starts a worker comes with or after one that sees
that the reason is gone. -/
theorem repairs_of_started {loop : Loop} {reason : State} {previous : Fingerprint}
    (blocked : loop.blocked = some (reason, previous)) {attempts : List Attempt}
    {middle later : List (List Event)} {round : List Event}
    (split : rounds init waiting loop attempts = middle ++ round :: later)
    (started : .started ∈ round) : ∃ repair ∈ middle ++ [round], Repairs reason previous repair := by
  induction attempts generalizing loop middle with
  | nil => exact absurd split.symm (List.append_ne_nil_of_right_ne_nil _ (List.cons_ne_nil _ _))
  | cons attempt rest ih =>
    rw [rounds] at split
    rcases @blocked_iterate init waiting loop attempt reason previous blocked with
      repairs | ⟨quiet, stays⟩
    · cases middle with
      | nil =>
        obtain ⟨rfl, -⟩ := List.cons.inj split
        exact ⟨_, List.mem_cons_self, repairs⟩
      | cons first middle =>
        obtain ⟨rfl, -⟩ := List.cons.inj split
        exact ⟨_, List.mem_cons_self, repairs⟩
    · cases middle with
      | nil =>
        obtain ⟨rfl, -⟩ := List.cons.inj split
        exact absurd started quiet
      | cons first middle =>
        obtain ⟨-, shorter⟩ := List.cons.inj split
        cases goesOn : (iterate init waiting loop attempt).2 with
        | again next =>
          rw [goesOn] at shorter
          obtain ⟨repair, mem, repairs⟩ := ih (stays next goesOn) shorter
          exact ⟨repair, List.mem_cons_of_mem _ mem, repairs⟩
        | ends result =>
          rw [goesOn] at shorter
          exact absurd shorter.symm (List.append_ne_nil_of_right_ne_nil _ (List.cons_ne_nil _ _))

/-- After a worker that ended rejected or too old, a worker is started only once a round has
seen that the reason is gone. -/
theorem repairs_between {loop : Loop} {attempts : List Attempt}
    {before middle later : List (List Event)} {bad good : List Event} {result : State} {fingerprint : Fingerprint}
    (split : rounds init waiting loop attempts = before ++ bad :: (middle ++ good :: later))
    (bars : result = .rejected ∨ result = .version) (ended : .ended (some result) ∈ bad)
    (saw : .saw fingerprint ∈ bad) (started : .started ∈ good) :
    ∃ repair ∈ middle ++ [good], Repairs result fingerprint repair := by
  obtain ⟨here, attempt, rest, rfl, done | ⟨next, again, same⟩⟩ := rounds_split split
  · exact absurd done (List.append_ne_nil_of_right_ne_nil _ (List.cons_ne_nil _ _))
  · exact repairs_of_started (blocks_iterate bars ended saw again) same.symm started

end Runs

/-! ## The lock and the workers -/

/-- Whether the lock is held, and how many workers there are. -/
structure Observed where
  held : Bool
  workers : Nat
deriving DecidableEq, Repr

def Observed.after (observed : Observed) : Event → Observed
  | .locked => { observed with held := true }
  | .saw _ => observed
  | .started => { observed with workers := observed.workers + 1 }
  | .ended _ => { observed with workers := observed.workers - 1 }
  | .unlocked => { observed with held := false }
  | .waited _ _ => observed

/-- What may happen when: a worker starts under the lock where there is none, and the lock
is released where there is none. -/
def Observed.Allows (observed : Observed) : Event → Prop
  | .started => observed.held = true ∧ observed.workers = 0
  | .unlocked => observed.workers = 0
  | _ => True

/-- There is one worker at most, and only under the lock. -/
def Observed.Guards (observed : Observed) : Prop :=
  observed.workers ≤ 1 ∧ (observed.workers = 1 → observed.held = true)

section Lock

variable {init waiting : Bool}

/-- A round begins and ends without the lock and without a worker. -/
theorem guarded_round (loop : Loop) (attempt : Attempt) :
    Guarded Observed.after Observed.Allows ⟨false, 0⟩ (iterate init waiting loop attempt).1 ∧
      (iterate init waiting loop attempt).1.foldl Observed.after ⟨false, 0⟩ = ⟨false, 0⟩ := by
  have waits : ∀ {wait}, IsWait wait → Guarded Observed.after Observed.Allows ⟨false, 0⟩ wait ∧
      wait.foldl Observed.after ⟨false, 0⟩ = ⟨false, 0⟩ := by
    rintro wait (rfl | ⟨result, seconds, rfl⟩)
    · exact ⟨trivial, rfl⟩
    · exact ⟨⟨trivial, trivial⟩, rfl⟩
  have then' : ∀ {events wait}, IsWait wait → Guarded Observed.after Observed.Allows ⟨false, 0⟩ events →
      events.foldl Observed.after ⟨false, 0⟩ = ⟨false, 0⟩ →
      Guarded Observed.after Observed.Allows ⟨false, 0⟩ (events ++ wait) ∧
        (events ++ wait).foldl Observed.after ⟨false, 0⟩ = ⟨false, 0⟩ := by
    intro events wait isWait allowed back
    rw [Guarded.append_iff, List.foldl_append, back]
    exact ⟨⟨allowed, (waits isWait).1⟩, (waits isWait).2⟩
  rcases iterate_cases init waiting loop attempt with
    ⟨events, result, early, shape⟩ | ⟨events, result, detail, settles, shape⟩ | ⟨-, works⟩
  · rw [early]
    rcases shape with rfl | rfl
    · exact ⟨trivial, rfl⟩
    · exact ⟨⟨trivial, rfl, trivial⟩, rfl⟩
  · rw [settles]
    obtain ⟨wait, isWait, ends⟩ := settle_events waiting loop attempt events result detail
    rw [ends]
    rcases shape with rfl | rfl
    · exact then' isWait trivial rfl
    · exact then' isWait ⟨trivial, trivial, rfl, trivial⟩ rfl
  · rw [works]
    obtain ⟨⟨wait, isWait, shape⟩, -⟩ := work_spec init waiting loop attempt
    rw [shape, WorkerRun.events]
    split
    · exact @then' [.locked, .saw _, .started, .ended _, .unlocked] wait isWait
        ⟨trivial, trivial, ⟨rfl, rfl⟩, trivial, rfl, trivial⟩ rfl
    · exact @then' [.locked, .saw _, .unlocked] wait isWait ⟨trivial, trivial, rfl, trivial⟩ rfl

theorem guarded_rounds (loop : Loop) (attempts : List Attempt) :
    Guarded Observed.after Observed.Allows ⟨false, 0⟩ (rounds init waiting loop attempts).flatten := by
  induction attempts generalizing loop with
  | nil => trivial
  | cons attempt rest ih =>
    obtain ⟨allowed, back⟩ := @guarded_round init waiting loop attempt
    rw [rounds, List.flatten_cons, Guarded.append_iff, back]
    refine ⟨allowed, ?_⟩
    cases (iterate init waiting loop attempt).2 with
    | again next => exact ih next
    | ends result => trivial

/-- What is allowed keeps the workers under the lock. -/
theorem guards_after {observed : Observed} {event : Event} (guards : observed.Guards)
    (allowed : observed.Allows event) : (observed.after event).Guards := by
  obtain ⟨held, workers⟩ := observed
  obtain ⟨atMost, under⟩ := guards
  cases event with
  | locked => exact ⟨atMost, fun _ => rfl⟩
  | saw fingerprint => exact ⟨atMost, under⟩
  | started =>
    obtain ⟨isHeld, none'⟩ := allowed
    dsimp only at none' isHeld
    subst none'
    exact ⟨Nat.le_refl _, fun _ => isHeld⟩
  | ended state =>
    refine ⟨(Nat.sub_le _ _).trans atMost, fun one => ?_⟩
    dsimp only [Observed.after] at one atMost
    omega
  | unlocked =>
    have none' : workers = 0 := allowed
    subst none'
    exact ⟨Nat.zero_le _, fun one => absurd one Nat.zero_ne_one⟩
  | waited result seconds => exact ⟨atMost, under⟩

end Lock

/-! ## The waits -/

/-- The waits among the events, with what they wait for. -/
def waits (events : List Event) : List (State × Nat) :=
  events.filterMap fun event =>
    match event with
    | .waited result seconds => some (result, seconds)
    | _ => none

/-- How many results at the end are retried with a backoff. -/
def streak (results : List State) : Nat := (results.rtakeWhile State.isTransient).length

/-- The backoff after so many results that are retried with one. -/
def backoffAfter (count : Nat) : Nat := min (State.pollDelay * 2 ^ count) State.maxBackoff

theorem streak_concat (results : List State) (result : State) :
    streak (results ++ [result]) = if result.isTransient then streak results + 1 else 0 := by
  rw [streak, List.rtakeWhile_concat]
  split
  · rw [List.length_append, List.length_singleton, streak]
  · rfl

theorem backoffAfter_succ (count : Nat) :
    min (backoffAfter count * 2) State.maxBackoff = backoffAfter (count + 1) := by
  rw [backoffAfter, backoffAfter, Nat.pow_succ, ← Nat.mul_assoc]
  omega

section Waits

variable {init waiting : Bool}

theorem waits_append (first second : List Event) : waits (first ++ second) = waits first ++ waits second :=
  List.filterMap_append

theorem waits_settle {loop : Loop} {attempt : Attempt} {events : List Event} {result : State}
    {detail : String} (quiet : waits events = []) : (waits (settle waiting loop attempt events result detail).1 = [] ∧
      ∃ answer, (settle waiting loop attempt events result detail).2 = .ends answer) ∨
    waits (settle waiting loop attempt events result detail).1 = [(result, (result.retryDelay loop.backoff).1)] ∧
      ∀ next, (settle waiting loop attempt events result detail).2 = .again next →
        next.backoff = (result.retryDelay loop.backoff).2 := by
  rw [settle]
  split
  · exact .inl ⟨quiet, _, rfl⟩
  · refine .inr ⟨?_, fun next again => ?_⟩
    · rw [waits_append, quiet]
      rfl
    · dsimp only at again
      split at again
      · cases again
      · cases again
        rfl

/-- A round waits as the policy has it, or is the last. -/
theorem waits_iterate (loop : Loop) (attempt : Attempt) : (waits (iterate init waiting loop attempt).1 = [] ∧
      ∃ answer, (iterate init waiting loop attempt).2 = .ends answer) ∨
    ∃ result, waits (iterate init waiting loop attempt).1 = [(result, (result.retryDelay loop.backoff).1)] ∧
      ∀ next, (iterate init waiting loop attempt).2 = .again next →
        next.backoff = (result.retryDelay loop.backoff).2 := by
  rcases iterate_cases init waiting loop attempt with
    ⟨events, result, early, shape⟩ | ⟨events, result, detail, settles, shape⟩ | ⟨-, works⟩
  · rw [early]
    refine .inl ⟨?_, _, rfl⟩
    rcases shape with rfl | rfl <;> rfl
  · rw [settles]
    have quiet : waits events = [] := by
      rcases shape with rfl | rfl <;> rfl
    exact (waits_settle quiet).imp id fun waited => ⟨result, waited⟩
  · have quiet : waits ([.locked, .saw attempt.fingerprint] ++ attempt.worker.events init ++
        [.unlocked]) = [] := by
      rw [WorkerRun.events]
      split <;> rfl
    rw [works, work]
    split
    · exact .inl ⟨quiet, _, rfl⟩
    · exact .inl ⟨quiet, _, rfl⟩
    · rename_i code detail _
      split
      · exact .inl ⟨quiet, _, rfl⟩
      · dsimp only
        have sameBackoff : (if State.fromCode code = .rejected ∨ State.fromCode code = .version then
            { loop with blocked := some (State.fromCode code, attempt.fingerprint) }
            else loop).backoff = loop.backoff := by
          split <;> rfl
        refine (waits_settle quiet).imp id fun waited => ⟨State.fromCode code, ?_⟩
        rw [sameBackoff] at waited
        exact waited

/-- The waits of a run whose earlier results are known. -/
theorem waits_rounds {loop : Loop} {earlier : List State}
    (backoff : loop.backoff = backoffAfter (streak earlier)) {attempts : List Attempt}
    {before later : List (State × Nat)} {result : State} {seconds : Nat}
    (split : waits (rounds init waiting loop attempts).flatten = before ++ (result, seconds) :: later) :
    seconds = if result.isTransient then backoffAfter (streak (earlier ++ before.map Prod.fst))
      else State.pollDelay := by
  induction attempts generalizing loop earlier before with
  | nil => exact absurd split.symm (List.append_ne_nil_of_right_ne_nil _ (List.cons_ne_nil _ _))
  | cons attempt rest ih =>
    rw [rounds, List.flatten_cons, waits_append] at split
    rcases @waits_iterate init waiting loop attempt with
      ⟨quiet, answer, done⟩ | ⟨first, waited, goesOn⟩
    · rw [quiet, done] at split
      exact absurd split.symm (List.append_ne_nil_of_right_ne_nil _ (List.cons_ne_nil _ _))
    · rw [waited, List.singleton_append] at split
      cases before with
      | nil =>
        obtain ⟨same, -⟩ := List.cons.inj split
        cases same
        rw [List.map_nil, List.append_nil, State.retryDelay]
        split
        · exact backoff
        · rfl
      | cons other before =>
        obtain ⟨rfl, shorter⟩ := List.cons.inj split
        cases next : (iterate init waiting loop attempt).2 with
        | ends answer =>
          rw [next] at shorter
          exact absurd shorter.symm (List.append_ne_nil_of_right_ne_nil _ (List.cons_ne_nil _ _))
        | again after =>
          rw [next] at shorter
          have nextBackoff : after.backoff = backoffAfter (streak (earlier ++ [first])) := by
            rw [goesOn after next, State.retryDelay, streak_concat]
            split
            · rw [backoff, backoffAfter_succ]
            · rfl
          have waits := ih nextBackoff shorter
          rw [List.append_assoc, List.singleton_append] at waits
          exact waits

end Waits

/-! ## How a run goes on -/

/-- Why a round ends the supervisor: it is told to stop, or its worker was run and ended for good. -/
def Attempt.Ends (attempt : Attempt) (init : Bool) (round : List Event) : Prop :=
  attempt.stopping = true ∨ (init = true ∧ attempt.stoppedAcquiring = true) ∨
    (attempt.acquired = .held ∧ attempt.worker.events init <:+: round ∧
      ∀ code detail, attempt.worker.result init = .ok (some (code, detail)) → code = 0)

/-- What a round comes to that does not end the supervisor. Under the lock the worker is run, unless it is
barred by an earlier result. -/
def Attempt.ComesTo (attempt : Attempt) (init : Bool) (barred : State → Fingerprint → Prop)
    (round : List Event) (result : State) : Prop :=
  match attempt.acquired with
  | .occupied => result = .occupied
  | .error _ => result = .storage
  | .held =>
    (∃ previous, barred result previous ∧ result.awaitsRepair previous attempt.fingerprint = true) ∨
      attempt.worker.events init <:+: round ∧
        ∃ code detail, attempt.worker.result init = .ok (some (code, detail)) ∧ code ≠ 0 ∧
          result = State.fromCode code

/-- An earlier round saw the fingerprint and ended a worker in the state. -/
def BarredBy (earlier : List (List Event)) (result : State) (previous : Fingerprint) : Prop :=
  ∃ bad ∈ earlier, .ended (some result) ∈ bad ∧ .saw previous ∈ bad

section GoesOn

variable {init : Bool} {loop : Loop} {attempt : Attempt}

/-- A round that settles has its wait, and the loop goes on unless it is told to stop there. -/
theorem settle_waits {events : List Event} {result : State} {detail : String} (quiet : waits events = []) :
    (∃ seconds, waits (settle true loop attempt events result detail).1 = [(result, seconds)]) ∧
      ((∃ next, (settle true loop attempt events result detail).2 = .again next) ↔ attempt.stoppedWaiting = false) := by
  rw [settle]
  refine ⟨⟨_, by rw [if_neg (by decide), waits_append, quiet]; rfl⟩, ?_⟩
  cases attempt.stoppedWaiting with
  | true => exact ⟨fun ⟨_, again⟩ => Next.noConfusion again, fun told => by cases told⟩
  | false => exact ⟨fun _ => rfl, fun _ => ⟨_, rfl⟩⟩

/-- A round ends the supervisor for a reason, or waits with what it came to. -/
theorem iterate_spec (init : Bool) (loop : Loop) (attempt : Attempt) :
    ((∃ answer, (iterate init true loop attempt).2 = .ends answer) ∧
      attempt.Ends init (iterate init true loop attempt).1) ∨
    ∃ result, attempt.ComesTo init (fun reason previous => loop.blocked = some (reason, previous))
        (iterate init true loop attempt).1 result ∧
      (∃ seconds, waits (iterate init true loop attempt).1 = [(result, seconds)]) ∧
      ((∃ next, (iterate init true loop attempt).2 = .again next) ↔ attempt.stoppedWaiting = false) := by
  rw [iterate]
  split
  next stops => exact .inl ⟨⟨_, rfl⟩, .inl stops⟩
  next =>
    split
    next stops => exact .inl ⟨⟨_, rfl⟩, .inr (.inl ((Bool.and_eq_true _ _).mp stops))⟩
    next =>
      split
      next occupied =>
        refine .inr ⟨.occupied, ?_, settle_waits rfl⟩
        rw [Attempt.ComesTo, occupied]
      next kind failed =>
        refine .inr ⟨.storage, ?_, settle_waits rfl⟩
        rw [Attempt.ComesTo, failed]
      next held =>
        split
        next reason previous bars =>
          obtain ⟨blocked, awaits⟩ := Option.filter_eq_some_iff.mp bars
          refine .inr ⟨reason, ?_, settle_waits rfl⟩
          rw [Attempt.ComesTo, held]
          exact .inl ⟨previous, blocked, awaits⟩
        next =>
          have quiet : waits ([.locked, .saw attempt.fingerprint] ++ attempt.worker.events init ++
              [.unlocked]) = [] := by
            rw [WorkerRun.events]
            split <;> rfl
          have within : ∀ tail, attempt.worker.events init <:+:
              ([.locked, .saw attempt.fingerprint] ++ attempt.worker.events init ++ [.unlocked]) ++ tail :=
            fun tail => ⟨_, _, List.append_assoc _ _ tail |>.symm⟩
          have alone := within []
          rw [List.append_nil] at alone
          rw [work]
          split
          next message failed =>
            exact .inl ⟨⟨_, rfl⟩, .inr (.inr ⟨held, alone, fun _ _ same => by rw [failed] at same; cases same⟩)⟩
          next stops =>
            exact .inl ⟨⟨_, rfl⟩, .inr (.inr ⟨held, alone, fun _ _ same => by rw [stops] at same; cases same⟩)⟩
          next code detail came =>
            split
            next zero =>
              refine .inl ⟨⟨_, rfl⟩, .inr (.inr ⟨held, alone, fun _ _ same => ?_⟩)⟩
              rw [came] at same
              cases same
              exact zero
            next nonzero =>
              refine .inr ⟨State.fromCode code, ?_, settle_waits quiet⟩
              rw [Attempt.ComesTo, held]
              refine .inr ⟨?_, code, detail, came, nonzero, rfl⟩
              obtain ⟨wait, -, shape⟩ := settle_events true
                (if State.fromCode code = .rejected ∨ State.fromCode code = .version then
                  { loop with blocked := some (State.fromCode code, attempt.fingerprint) } else loop)
                attempt ([.locked, .saw attempt.fingerprint] ++ attempt.worker.events init ++ [.unlocked])
                (State.fromCode code) detail
              exact shape ▸ within wait

/-- What bars a worker after a round barred it before or is what a worker of the round ended with. -/
theorem blocked_again {waiting : Bool} {next : Loop}
    (again : (iterate init waiting loop attempt).2 = .again next) {reason : State} {previous : Fingerprint}
    (blocked : next.blocked = some (reason, previous)) :
    loop.blocked = some (reason, previous) ∨ BarredBy [(iterate init waiting loop attempt).1] reason previous := by
  rcases iterate_cases init waiting loop attempt with
    ⟨events, answer, early, shape⟩ | ⟨events, answer, detail, settles, shape⟩ | ⟨-, works⟩
  · rw [early] at again
    cases again
  · rw [settles] at again
    exact .inl ((blocked_settle again).symm.trans blocked)
  · obtain ⟨⟨wait, isWait, shape⟩, blocks⟩ := work_spec init waiting loop attempt
    rw [works] at again
    have after := blocks next again
    rw [blocked] at after
    split at after
    next code detail came =>
      split at after
      next bars =>
        obtain ⟨rfl, rfl⟩ := Prod.mk.inj (Option.some.inj after)
        have started : attempt.worker.started = true := by
          cases isRun : attempt.worker with
          | unprepared | unlaunched =>
            rw [isRun] at came
            cases came
            exact absurd bars (by decide)
          | noTerminal =>
            rw [isRun] at came
            cases came
            exact absurd bars (by decide)
          | ran | lost => rfl
        have ended : attempt.worker.endedWith init = some (State.fromCode code) := by
          rw [WorkerRun.endedWith, if_pos started, came]
        refine .inr ⟨_, List.mem_singleton_self _, ?_, ?_⟩
        · rw [works, shape, WorkerRun.events, if_pos started, ended]
          simp
        · rw [works, shape]
          simp
      next => exact .inl after.symm
    next => exact .inl after.symm

/-- Each round of a run ends the supervisor for a reason, or waits once with what it came to and is followed by
another. -/
theorem rounds_spec {earlier : List (List Event)}
    (known : ∀ reason previous, loop.blocked = some (reason, previous) → BarredBy earlier reason previous)
    {attempts : List Attempt} {before later : List (List Event)} {round : List Event}
    (split : rounds init true loop attempts = before ++ round :: later) :
    ∃ attempt rest, attempts.drop before.length = attempt :: rest ∧ (attempt.Ends init round ∧ later = [] ∨
        ∃ result seconds, waits round = [(result, seconds)] ∧
          attempt.ComesTo init (BarredBy (earlier ++ before)) round result ∧
            (later = [] ↔ attempt.stoppedWaiting = true ∨ rest = [])) := by
  induction attempts generalizing loop earlier before with
  | nil => exact absurd split.symm (List.append_ne_nil_of_right_ne_nil _ (List.cons_ne_nil _ _))
  | cons attempt rest ih =>
    rw [rounds] at split
    cases before with
    | nil =>
      obtain ⟨rfl, rfl⟩ := List.cons.inj split
      refine ⟨attempt, rest, rfl, ?_⟩
      rcases iterate_spec init loop attempt with ⟨⟨answer, done⟩, ends⟩ | ⟨result, comesTo, ⟨seconds, waited⟩, goesOn⟩
      · exact .inl ⟨ends, by rw [done]⟩
      · refine .inr ⟨result, seconds, waited, ?_, ?_⟩
        · unfold Attempt.ComesTo at comesTo ⊢
          rw [List.append_nil]
          split at comesTo
          · exact comesTo
          · exact comesTo
          · exact comesTo.imp (fun ⟨previous, blocked, awaits⟩ => ⟨previous, known _ _ blocked, awaits⟩) id
        · cases isNext : (iterate init true loop attempt).2 with
          | ends answer =>
            have stops : attempt.stoppedWaiting = true := by
              by_contra notStopped
              obtain ⟨next, again⟩ := goesOn.mpr (Bool.not_eq_true _ ▸ notStopped)
              rw [isNext] at again
              cases again
            exact ⟨fun _ => .inl stops, fun _ => rfl⟩
          | again next =>
            have notStopped := goesOn.mp ⟨next, isNext⟩
            rw [notStopped]
            cases rest with
            | nil => exact ⟨fun _ => .inr rfl, fun _ => rfl⟩
            | cons another rest =>
              exact ⟨fun none' => absurd none' (List.cons_ne_nil _ _), fun some' => by simp at some'⟩
    | cons first before =>
      obtain ⟨rfl, shorter⟩ := List.cons.inj split
      cases isNext : (iterate init true loop attempt).2 with
      | ends answer =>
        rw [isNext] at shorter
        exact absurd shorter.symm (List.append_ne_nil_of_right_ne_nil _ (List.cons_ne_nil _ _))
      | again next =>
        rw [isNext] at shorter
        have known' : ∀ reason previous, next.blocked = some (reason, previous) →
            BarredBy (earlier ++ [(iterate init true loop attempt).1]) reason previous := by
          intro reason previous blocked
          rcases blocked_again isNext blocked with before' | ⟨bad, mem, ended⟩
          · obtain ⟨bad, mem, ended⟩ := known reason previous before'
            exact ⟨bad, List.mem_append_left _ mem, ended⟩
          · exact ⟨bad, List.mem_append_right _ mem, ended⟩
        obtain ⟨here, others, isHere, goes⟩ := ih known' shorter
        rw [List.append_assoc, List.singleton_append] at goes
        exact ⟨here, others, isHere, goes⟩

end GoesOn

/-! ## The law of a run -/

/-- Only a round that has seen a fingerprint ends a worker. -/
theorem saw_of_ended {init waiting : Bool} {loop : Loop} {attempt : Attempt} {state : Option State}
    (ended : .ended state ∈ (iterate init waiting loop attempt).1) :
    ∃ fingerprint, .saw fingerprint ∈ (iterate init waiting loop attempt).1 := by
  rcases iterate_cases init waiting loop attempt with
    ⟨events, answer, early, shape⟩ | ⟨events, answer, detail, settles, shape⟩ | ⟨-, works⟩
  · rw [early] at ended
    rcases shape with rfl | rfl <;> simp at ended
  · rw [settles] at ended
    refine absurd ended (not_mem_settle (by simp) ?_)
    rcases shape with rfl | rfl <;> simp
  · obtain ⟨⟨wait, -, shape⟩, -⟩ := work_spec init waiting loop attempt
    rw [works, shape]
    exact ⟨attempt.fingerprint, List.mem_cons_of_mem _ List.mem_cons_self⟩

/-- Whatever the lock, the saved session and the workers do in a run that waits: a worker
rejected under a fingerprint is followed by another only once a round has seen another
fingerprint under the lock; one that is too old is followed by none; there is one worker at
most, and only under the lock; the waits double from 10 s to 300 s while workers fail or the
network does, and are 10 s after anything else; and each round is one of the surroundings' answers,
which runs the worker that nothing bars, and then ends the supervisor for a reason or waits once with
what it came to and is followed by another. -/
theorem supervise_law (init : Bool) (attempts : List Attempt) :
    let run := rounds init true .start attempts
    (∀ before bad middle good later fingerprint,
      run = before ++ bad :: (middle ++ good :: later) → .ended (some .rejected) ∈ bad →
        .saw fingerprint ∈ bad → .started ∈ good →
          ∃ repair ∈ middle ++ [good], ∃ other, [.locked, .saw other] <+: repair ∧ other ≠ fingerprint) ∧
    (∀ before bad later, run = before ++ bad :: later → .ended (some .version) ∈ bad →
      ∀ round ∈ later, .started ∉ round) ∧
    (∀ first, first <+: run.flatten → (first.foldl Observed.after ⟨false, 0⟩).workers ≤ 1 ∧
        ((first.foldl Observed.after ⟨false, 0⟩).workers = 1 →
          (first.foldl Observed.after ⟨false, 0⟩).held = true)) ∧
    (∀ before result seconds later, waits run.flatten = before ++ (result, seconds) :: later → seconds =
        if result = .failed ∨ result = .network then min (10 * 2 ^ streak (before.map Prod.fst)) 300
        else 10) ∧
    (attempts ≠ [] → run ≠ []) ∧
    ∀ before round later, run = before ++ round :: later →
      ∃ attempt rest, attempts.drop before.length = attempt :: rest ∧ (attempt.Ends init round ∧ later = [] ∨
          ∃ result seconds, waits round = [(result, seconds)] ∧
            attempt.ComesTo init (BarredBy before) round result ∧
              (later = [] ↔ attempt.stoppedWaiting = true ∨ rest = [])) := by
  intro run
  refine ⟨?_, ?_, ?_, ?_, ?_, ?_⟩
  · intro before bad middle good later fingerprint split ended saw started
    obtain ⟨repair, mem, current, first, after, rfl, changed⟩ :=
      repairs_between split (.inl rfl) ended saw started
    refine ⟨_, mem, current, ⟨_, rfl⟩, fun same => ?_⟩
    rw [same] at changed
    simp [State.awaitsRepair] at changed
  · intro before bad later split ended round mem started
    obtain ⟨middle, after, rfl⟩ := List.append_of_mem mem
    obtain ⟨here, attempt, rest, isRound, -⟩ := rounds_split split
    obtain ⟨fingerprint, saw⟩ := saw_of_ended (isRound ▸ ended)
    obtain ⟨repair, -, current, first, last, -, changed⟩ :=
      repairs_between split (.inr rfl) ended (isRound ▸ saw) started
    simp [State.awaitsRepair] at changed
  · intro first isFirst
    obtain ⟨rest, split⟩ := isFirst
    have guarded := @guarded_rounds init true .start attempts
    rw [← split, Guarded.append_iff] at guarded
    exact Guarded.foldl_invariant Observed.Guards (fun _ _ guards => guards_after guards)
      ⟨Nat.zero_le _, fun one => absurd one Nat.zero_ne_one⟩ guarded.1
  · intro before result seconds later split
    have waited := @waits_rounds init true .start [] rfl attempts before later result seconds split
    rw [List.nil_append] at waited
    have transient : result.isTransient = true ↔ result = .failed ∨ result = .network := by
      rw [State.isTransient, Bool.or_eq_true, decide_eq_true_eq, decide_eq_true_eq]
    rw [waited]
    by_cases retried : result = .failed ∨ result = .network
    · rw [if_pos (transient.mpr retried), if_pos retried]
      rfl
    · rw [if_neg (mt transient.mp retried), if_neg retried]
      rfl
  · intro some'
    obtain ⟨attempt, rest, rfl⟩ := List.exists_cons_of_ne_nil some'
    exact List.cons_ne_nil _ _
  · intro before round later split
    exact @rounds_spec init .start [] (fun _ _ blocked => by cases blocked) attempts before later round split

/-- A round that holds the lock, and the exit code of its worker if it has one. -/
def Attempt.exits (fingerprint : List UInt8) (exit : Option Int) : Attempt :=
  ⟨false, .held, false, some fingerprint, .ran exit false "", false⟩

/-- Two crashes, no network, and a session that is rejected, seen again and then replaced before the
version is refused. -/
theorem supervise_law_failures :
    let run := rounds false true .start
      [.exits [1] none, .exits [1] (some 1), .exits [1] (some 17), .exits [1] (some 13), .exits [1] none,
        .exits [2] (some 14), .exits [3] none]
    waits run.flatten = [(.failed, 10), (.failed, 20), (.network, 40), (.rejected, 10), (.rejected, 10),
        (.version, 10), (.version, 10)] ∧
      40 = min (10 * 2 ^ streak [.failed, .failed]) 300 ∧
      (∃ repair ∈ (run.drop 4).take 2, ∃ other, [.locked, .saw other] <+: repair ∧ other ≠ some [1]) ∧
      (∀ round ∈ run.drop 6, .started ∉ round) ∧ run.length = 7 ∧
      ((run.take 1).flatten.foldl Observed.after ⟨false, 0⟩).workers ≤ 1 ∧
      ∃ (attempt : Attempt) (rest : List Attempt), [.exits [2] (some 14), .exits [3] none] = attempt :: rest ∧
        (attempt.Ends false ((run.drop 5).headD []) ∧ run.drop 6 = [] ∨
          ∃ result seconds, waits ((run.drop 5).headD []) = [(result, seconds)] ∧
            attempt.ComesTo false (BarredBy (run.take 5)) ((run.drop 5).headD []) result ∧
              (run.drop 6 = [] ↔ attempt.stoppedWaiting = true ∨ rest = [])) := by
  intro run
  obtain ⟨rejected, version, guards, delays, -, goesOn⟩ := supervise_law false
    [.exits [1] none, .exits [1] (some 1), .exits [1] (some 17), .exits [1] (some 13), .exits [1] none,
      .exits [2] (some 14), .exits [3] none]
  refine ⟨by decide, delays [(.failed, 10), (.failed, 20)] .network 40 _ rfl, ?_, ?_, by decide, ?_, ?_⟩
  · exact rejected (run.take 3) _ [_] _ _ (some [1]) rfl (by decide) (by decide) (by decide)
  · exact version (run.take 5) _ _ rfl (by decide)
  · exact (guards (run.take 1).flatten ⟨(run.drop 1).flatten, rfl⟩).1
  · exact goesOn (run.take 5) _ _ rfl

end TutaBridge.Service
