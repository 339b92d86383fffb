import TutaBridge.Std.Steps
import TutaBridge.Std.Text

/-!
# The rate governor

All requests to Tuta go through one `GovernedRestClient`: a semaphore, a deadline before
which nothing is sent, and a counter of throttles. A call takes a permit, waits the
suspension out and sends; a throttled response moves the deadline. Calls move one at a
time, in any order, and time passes between any two moves. Instants and durations are in
nanoseconds.
-/

namespace TutaBridge.Net

open TutaBridge.Std

/-- `Duration::from_secs`. -/
def seconds (count : Nat) : Nat := count * 1000000000

/-- `MAX_IN_FLIGHT`. -/
def maxInFlight : Nat := 4

/-- `DEFAULT_BACKOFF_BASE`. -/
def defaultBackoffBase : Nat := seconds 2

/-- `MAX_DEFAULT_BACKOFF`. -/
def maxDefaultBackoff : Nat := seconds 60

/-- `MAX_SERVER_BACKOFF`. -/
def maxServerBackoff : Nat := seconds 300

/-- `RestResponse`, as far as the governor looks at it. -/
structure RestResponse where
  status : Nat
  headers : List (String × Text)
deriving DecidableEq, Repr

/-- `throttle_delay`. -/
def throttleDelay (response : RestResponse) : Option (Option Nat) :=
  if response.status = 429 ∨ response.status = 503 then
    some (((response.headers.lookup "retry-after").or (response.headers.lookup "suspension-time")).bind
      fun value => Text.parseUnsigned 64 (Text.trim value))
  else none

/-- `backoff_for`: the wait, and the counter after it, which wraps at 32 bits. -/
def backoffFor (consecutiveThrottles : Nat) : Option Nat → Nat × Nat
  | some serverSecs => (max defaultBackoffBase (min (seconds serverSecs) maxServerBackoff), 0)
  | none =>
    (min (defaultBackoffBase * 2 ^ min consecutiveThrottles 5) maxDefaultBackoff,
      (consecutiveThrottles + 1) % 2 ^ 32)

/-- Where a call of `request_binary` stands. -/
inductive Phase where
  /-- It waits for a permit. -/
  | waiting
  /-- It is about to read the deadline. -/
  | checking
  /-- It read the deadline and is about to look at the clock. -/
  | read (deadline : Option Nat)
  | sleeping (deadline : Nat)
  /-- The deadline it read has passed; it is about to send. -/
  | cleared (deadline : Option Nat)
  | inFlight
  /-- It was throttled and is about to move the deadline. -/
  | arming (deadline : Nat)
  | finished
deriving DecidableEq, Repr

/-- The phases between taking and returning a permit. -/
def Phase.holdsPermit : Phase → Bool
  | .waiting => false
  | .finished => false
  | _ => true

/-- What the calls share: the clock and the fields of `GovernedRestClient`. -/
structure Shared where
  clock : Nat
  permits : Nat
  suspendedUntil : Option Nat
  consecutiveThrottles : Nat
deriving DecidableEq, Repr

/-- What a call does next. -/
inductive Act where
  | acquire
  | read
  | compare
  | wake
  | send
  | respond (result : Option RestResponse)
  | arm
  /-- Its future is dropped before a response came. -/
  | drop
deriving DecidableEq, Repr

namespace Shared

/-- `suspend_for`, once it has the lock: the later of the two deadlines stays. -/
def suspend (shared : Shared) (deadline : Nat) : Shared :=
  match shared.suspendedUntil with
  | some existing =>
    if deadline ≤ existing then shared else { shared with suspendedUntil := some deadline }
  | none => { shared with suspendedUntil := some deadline }

/-- A suspension moves the deadline at most. -/
theorem suspend_eq (shared : Shared) (deadline : Nat) :
    shared.suspend deadline = { shared with suspendedUntil := (shared.suspend deadline).suspendedUntil } := by
  obtain ⟨clock, permits, suspendedUntil, consecutiveThrottles⟩ := shared
  unfold suspend
  cases suspendedUntil with
  | none => rfl
  | some existing =>
    dsimp only
    split
    · rfl
    · rfl

def release (shared : Shared) : Shared := { shared with permits := shared.permits + 1 }

/-- The handling of a response, up to the lock on the deadline. -/
def receive (shared : Shared) : Option RestResponse → Shared × Phase
  | none => (shared.release, .finished)
  | some response =>
    match throttleDelay response with
    | some serverSecs =>
      let (backoff, count) := backoffFor shared.consecutiveThrottles serverSecs
      ({ shared with consecutiveThrottles := count }, .arming (shared.clock + backoff))
    | none =>
      if 200 ≤ response.status ∧ response.status < 300 then
        ({ shared with consecutiveThrottles := 0 }.release, .finished)
      else (shared.release, .finished)

/-- One move of a call. -/
def act (shared : Shared) : Phase → Act → Option (Shared × Phase)
  | .waiting, .acquire =>
    if 0 < shared.permits then some ({ shared with permits := shared.permits - 1 }, .checking) else none
  | .checking, .read => some (shared, .read shared.suspendedUntil)
  | .read none, .compare => some (shared, .cleared none)
  | .read (some deadline), .compare =>
    if shared.clock < deadline then some (shared, .sleeping deadline)
    else some (shared, .cleared (some deadline))
  | .sleeping deadline, .wake => if deadline ≤ shared.clock then some (shared, .checking) else none
  | .cleared _, .send => some (shared, .inFlight)
  | .inFlight, .respond result => some (shared.receive result)
  | .arming deadline, .arm => some ((shared.suspend deadline).release, .finished)
  | .waiting, .drop => some (shared, .finished)
  | .checking, .drop => some (shared.release, .finished)
  | .read _, .drop => some (shared.release, .finished)
  | .sleeping _, .drop => some (shared.release, .finished)
  | .cleared _, .drop => some (shared.release, .finished)
  | .inFlight, .drop => some (shared.release, .finished)
  | _, _ => none

end Shared

/-- The governor with its calls, by number. -/
structure Governor where
  shared : Shared
  calls : List Phase
deriving DecidableEq, Repr

inductive Move where
  /-- A call of `request_binary` begins. -/
  | request
  | call (number : Nat) (act : Act)
  | tick (elapsed : Nat)
deriving DecidableEq, Repr

namespace Governor

/-- `GovernedRestClient::new`, at an instant. -/
def new (clock : Nat) : Governor where
  shared := { clock, permits := maxInFlight, suspendedUntil := none, consecutiveThrottles := 0 }
  calls := []

def step (governor : Governor) : Move → Option Governor
  | .request => some { governor with calls := governor.calls ++ [.waiting] }
  | .call number act =>
    governor.calls[number]?.bind fun phase =>
      (governor.shared.act phase act).map fun (shared, next) =>
        { shared, calls := governor.calls.set number next }
  | .tick elapsed =>
    some { governor with shared := { governor.shared with clock := governor.shared.clock + elapsed } }

/-- The number of requests in flight. -/
def inFlight (governor : Governor) : Nat := governor.calls.countP (· = .inFlight)

/-- The number of calls that hold a permit. -/
def holders (governor : Governor) : Nat := governor.calls.countP Phase.holdsPermit

end Governor

/-! ## What a move of a call does -/

/-- The moves of a call, with what they need and what they leave. -/
inductive Acted (shared : Shared) : Phase → Act → Shared → Phase → Prop where
  | acquired (free : 0 < shared.permits) :
      Acted shared .waiting .acquire { shared with permits := shared.permits - 1 } .checking
  | read : Acted shared .checking .read shared (.read shared.suspendedUntil)
  | cleared {deadline : Option Nat} (passed : ∀ instant, deadline = some instant → instant ≤ shared.clock) :
      Acted shared (.read deadline) .compare shared (.cleared deadline)
  | slept {deadline : Nat} (ahead : shared.clock < deadline) :
      Acted shared (.read (some deadline)) .compare shared (.sleeping deadline)
  | woken {deadline : Nat} (passed : deadline ≤ shared.clock) :
      Acted shared (.sleeping deadline) .wake shared .checking
  | sent {deadline : Option Nat} : Acted shared (.cleared deadline) .send shared .inFlight
  | failed : Acted shared .inFlight (.respond none) shared.release .finished
  | throttled {response : RestResponse} {serverSecs : Option Nat}
      (throttle : throttleDelay response = some serverSecs) :
      Acted shared .inFlight (.respond (some response))
        { shared with consecutiveThrottles := (backoffFor shared.consecutiveThrottles serverSecs).2 }
        (.arming (shared.clock + (backoffFor shared.consecutiveThrottles serverSecs).1))
  | succeeded {response : RestResponse} (accepted : throttleDelay response = none)
      (success : 200 ≤ response.status ∧ response.status < 300) :
      Acted shared .inFlight (.respond (some response))
        { shared with consecutiveThrottles := 0 }.release .finished
  | answered {response : RestResponse} (accepted : throttleDelay response = none)
      (noSuccess : ¬ (200 ≤ response.status ∧ response.status < 300)) :
      Acted shared .inFlight (.respond (some response)) shared.release .finished
  | armed {deadline : Nat} : Acted shared (.arming deadline) .arm (shared.suspend deadline).release .finished
  | abandoned : Acted shared .waiting .drop shared .finished
  | dropped {phase : Phase} (holds : phase.holdsPermit = true) (notArming : ∀ deadline, phase ≠ .arming deadline) :
      Acted shared phase .drop shared.release .finished

section Act

variable {shared next : Shared} {phase nextPhase : Phase} {act : Act}

theorem acted_of_receive (shared : Shared) (result : Option RestResponse) :
    Acted shared .inFlight (.respond result) (shared.receive result).1 (shared.receive result).2 := by
  unfold Shared.receive
  cases result with
  | none => exact .failed
  | some response =>
    dsimp only
    cases delay : throttleDelay response with
    | some serverSecs => exact .throttled delay
    | none =>
      dsimp only
      split
      · exact .succeeded delay ‹_›
      · exact .answered delay ‹_›

theorem acted_of_act (acts : shared.act phase act = some (next, nextPhase)) :
    Acted shared phase act next nextPhase := by
  unfold Shared.act at acts
  split at acts
  · split at acts
    · cases acts
      exact .acquired ‹_›
    · cases acts
  · cases acts
    exact .read
  · cases acts
    exact .cleared fun instant known => by cases known
  · split at acts
    · cases acts
      exact .slept ‹_›
    · cases acts
      exact .cleared fun instant known => by
        cases known
        exact Nat.le_of_not_lt ‹_›
  · split at acts
    · cases acts
      exact .woken ‹_›
    · cases acts
  · cases acts
    exact .sent
  · rename_i result
    have received := acted_of_receive shared result
    rw [Option.some.inj acts] at received
    exact received
  · cases acts
    exact .armed
  · cases acts
    exact .abandoned
  · cases acts
    exact .dropped rfl fun _ => Phase.noConfusion
  · cases acts
    exact .dropped rfl fun _ => Phase.noConfusion
  · cases acts
    exact .dropped rfl fun _ => Phase.noConfusion
  · cases acts
    exact .dropped rfl fun _ => Phase.noConfusion
  · cases acts
    exact .dropped rfl fun _ => Phase.noConfusion
  · cases acts

/-- A permit is taken from the semaphore and given back to it. -/
theorem permits_of_acted (acted : Acted shared phase act next nextPhase) :
    next.permits + nextPhase.holdsPermit.toNat = shared.permits + phase.holdsPermit.toNat := by
  cases acted with
  | acquired free => exact Nat.sub_add_cancel free
  | armed =>
    rw [Shared.suspend_eq]
    rfl
  | dropped holds notArming =>
    rw [holds]
    rfl
  | _ => rfl

theorem clock_of_acted (acted : Acted shared phase act next nextPhase) : next.clock = shared.clock := by
  cases acted with
  | armed =>
    rw [Shared.suspend_eq]
    rfl
  | _ => rfl

end Act

/-- The deadline after a suspension is the given one or the one there was, whichever is later. -/
theorem exists_suspendedUntil (shared : Shared) (deadline : Nat) :
    ∃ later, (shared.suspend deadline).suspendedUntil = some later ∧ deadline ≤ later ∧
      (∀ existing, shared.suspendedUntil = some existing → existing ≤ later) ∧
      (later = deadline ∨ shared.suspendedUntil = some later) := by
  unfold Shared.suspend
  cases armed : shared.suspendedUntil with
  | none => exact ⟨deadline, rfl, Nat.le_refl _, fun existing known => (by cases known), .inl rfl⟩
  | some existing =>
    dsimp only
    split
    · rename_i notLater
      exact ⟨existing, armed, notLater, fun other known => (by cases known; exact Nat.le_refl _), .inr rfl⟩
    · rename_i later
      exact ⟨deadline, rfl, Nat.le_refl _,
        fun other known => (by cases known; exact Nat.le_of_not_le later), .inl rfl⟩

/-! ## Invariants -/

namespace Governor

/-- Every permit is in the semaphore or with a call. -/
def Balanced (governor : Governor) : Prop := governor.shared.permits + governor.holders = maxInFlight

theorem step_call_cases {governor next : Governor} {number : Nat} {act : Act}
    (stepped : governor.step (.call number act) = some next) :
    ∃ phase shared nextPhase, governor.calls[number]? = some phase ∧ Acted governor.shared phase act shared nextPhase ∧
      next = { shared, calls := governor.calls.set number nextPhase } := by
  unfold step at stepped
  dsimp only at stepped
  cases found : governor.calls[number]? with
  | none =>
    rw [found] at stepped
    cases stepped
  | some phase =>
    rw [found, Option.bind_some] at stepped
    cases acts : governor.shared.act phase act with
    | none =>
      rw [acts] at stepped
      cases stepped
    | some pair =>
      rw [acts] at stepped
      cases stepped
      exact ⟨phase, pair.1, pair.2, rfl, acted_of_act acts, rfl⟩

theorem balanced_step {governor next : Governor} {move : Move} (balanced : governor.Balanced)
    (stepped : governor.step move = some next) : next.Balanced := by
  cases move with
  | request =>
    cases stepped
    unfold Balanced holders at balanced ⊢
    rw [List.countP_append]
    exact balanced
  | tick elapsed =>
    cases stepped
    exact balanced
  | call number act =>
    obtain ⟨phase, shared, nextPhase, found, acted, rfl⟩ := step_call_cases stepped
    obtain ⟨inRange, here⟩ := List.getElem?_eq_some_iff.mp found
    have permits := permits_of_acted acted
    unfold Balanced holders at balanced ⊢
    rw [List.countP_set inRange, here]
    cases before : phase.holdsPermit with
    | false =>
      rw [before] at permits
      cases later : nextPhase.holdsPermit with
      | false => rw [later] at permits; simp at permits ⊢; omega
      | true => rw [later] at permits; simp at permits ⊢; omega
    | true =>
      have held : 0 < governor.calls.countP Phase.holdsPermit :=
        List.countP_pos_iff.mpr ⟨phase, List.mem_of_getElem? found, before⟩
      rw [before] at permits
      cases later : nextPhase.holdsPermit with
      | false => rw [later] at permits; simp at permits ⊢; omega
      | true => rw [later] at permits; simp at permits ⊢; omega

end Governor

end TutaBridge.Net
