import TutaBridge.Net.GovernedClient

/-!
# What the governor keeps

Over every schedule of calls: the bound on requests in flight, the deadline that only moves
forward, the moment a request is sent at, what a throttled response does to the deadline,
and the waits of a row of throttles that name no delay.
-/

namespace TutaBridge.Net

open TutaBridge.Std

variable {governor : Governor}

variable {governor next : Governor} {schedule : List Move} {number : Nat} {clock : Nat}
    {move : Move} {response : RestResponse}

namespace Governor

/-- A schedule of a governor made at an instant, and where it leads. -/
abbrev Reaches (clock : Nat) (schedule : List Move) (governor : Governor) : Prop :=
  Steps step (new clock) schedule governor

/-- The second deadline is not before the first. -/
def NotBefore (first second : Option Nat) : Prop :=
  ∀ instant, first = some instant → ∃ later, second = some later ∧ instant ≤ later

theorem NotBefore.refl (deadline : Option Nat) : NotBefore deadline deadline :=
  fun instant known => ⟨instant, known, Nat.le_refl _⟩

theorem NotBefore.trans {first second third : Option Nat} (early : NotBefore first second)
    (late : NotBefore second third) : NotBefore first third := by
  intro instant known
  obtain ⟨middle, alsoKnown, before⟩ := early instant known
  obtain ⟨last, lastKnown, after⟩ := late middle alsoKnown
  exact ⟨last, lastKnown, Nat.le_trans before after⟩

/-! ## Requests in flight -/

theorem balanced_of_reaches
    (reached : Reaches clock schedule governor) : governor.Balanced :=
  reached.invariant Balanced (fun _ _ _ balanced stepped => balanced_step balanced stepped) rfl

theorem inFlight_le_holders (governor : Governor) : governor.inFlight ≤ governor.holders := by
  apply List.countP_mono_left
  intro phase _ flying
  rw [of_decide_eq_true flying]
  rfl

/-! ## The deadline -/

theorem notBefore_of_acted {shared next : Shared} {phase nextPhase : Phase} {act : Act}
    (acted : Acted shared phase act next nextPhase) : NotBefore shared.suspendedUntil next.suspendedUntil := by
  cases acted with
  | armed =>
    obtain ⟨later, armed, _, notBefore, _⟩ := exists_suspendedUntil shared _
    exact fun instant known => ⟨later, armed, notBefore instant known⟩
  | _ => exact .refl _

theorem notBefore_step (stepped : governor.step move = some next) :
    NotBefore governor.shared.suspendedUntil next.shared.suspendedUntil := by
  cases move with
  | request => cases stepped; exact .refl _
  | tick elapsed => cases stepped; exact .refl _
  | call number act =>
    obtain ⟨phase, shared, nextPhase, _, acted, rfl⟩ := step_call_cases stepped
    exact notBefore_of_acted acted

theorem notBefore_of_steps {later : Governor} (steps : Steps step governor schedule later) :
    NotBefore governor.shared.suspendedUntil later.shared.suspendedUntil :=
  steps.invariant (fun other => NotBefore governor.shared.suspendedUntil other.shared.suspendedUntil)
    (fun _ _ _ before stepped => before.trans (notBefore_step stepped)) (.refl _)

theorem clock_le_step (stepped : governor.step move = some next) :
    governor.shared.clock ≤ next.shared.clock := by
  cases move with
  | request => cases stepped; exact Nat.le_refl _
  | tick elapsed => cases stepped; exact Nat.le_add_right _ _
  | call number act =>
    obtain ⟨phase, shared, nextPhase, _, acted, rfl⟩ := step_call_cases stepped
    exact Nat.le_of_eq (clock_of_acted acted).symm

/-! ## One call among others -/

/-- What the move does is no move of this call. -/
def Elsewhere (number : Nat) (move : Move) : Prop := ∀ act, move ≠ .call number act

theorem phase_of_elsewhere {phase : Phase}
    (found : governor.calls[number]? = some phase) (elsewhere : Elsewhere number move)
    (stepped : governor.step move = some next) : next.calls[number]? = some phase := by
  cases move with
  | request =>
    cases stepped
    obtain ⟨inRange, _⟩ := List.getElem?_eq_some_iff.mp found
    rw [List.getElem?_append_left inRange]
    exact found
  | tick elapsed => cases stepped; exact found
  | call other act =>
    obtain ⟨_, shared, nextPhase, _, _, rfl⟩ := step_call_cases stepped
    have different : other ≠ number := fun same => elsewhere act (by rw [same])
    rw [List.getElem?_set_ne different]
    exact found

/-- After a move of its own the call is in the phase the move leads to. -/
theorem phase_of_call {act : Act} (stepped : governor.step (.call number act) = some next) :
    ∃ phase shared nextPhase, governor.calls[number]? = some phase ∧
      Acted governor.shared phase act shared nextPhase ∧ next.shared = shared ∧
      next.calls[number]? = some nextPhase := by
  obtain ⟨phase, shared, nextPhase, found, acted, rfl⟩ := step_call_cases stepped
  obtain ⟨inRange, _⟩ := List.getElem?_eq_some_iff.mp found
  exact ⟨phase, shared, nextPhase, found, acted, rfl, List.getElem?_set_self inRange⟩

/-! ## A throttled response -/

/-- A call that is to move the deadline does nothing else before. -/
theorem arming_of_steps {later : Governor} {number deadline : Nat}
    (found : governor.calls[number]? = some (.arming deadline)) (steps : Steps step governor schedule later)
    (unarmed : .call number .arm ∉ schedule) : later.calls[number]? = some (.arming deadline) := by
  induction steps with
  | nil => exact found
  | @cons state next final move rest first _ ih =>
    obtain ⟨notArm, restUnarmed⟩ := not_or.mp (fun mem => unarmed (List.mem_cons.mpr mem))
    refine ih ?_ restUnarmed
    by_cases here : ∃ act, move = .call number act
    · obtain ⟨act, rfl⟩ := here
      obtain ⟨phase, shared, nextPhase, alsoFound, acted, _⟩ := phase_of_call first
      cases found.symm.trans alsoFound
      cases acted with
      | armed => exact absurd rfl notArm
      | dropped _ notArming => exact absurd rfl (notArming deadline)
    · exact phase_of_elsewhere found (fun act same => here ⟨act, same⟩) first

theorem le_backoffFor (count : Nat) (serverSecs : Option Nat) :
    seconds 2 ≤ (backoffFor count serverSecs).1 ∧ (backoffFor count serverSecs).1 ≤ seconds 300 := by
  cases serverSecs with
  | some secs =>
    constructor
    · exact Nat.le_max_left _ _
    · exact Nat.max_le.mpr ⟨by decide, Nat.min_le_right _ _⟩
  | none =>
    constructor
    · refine Nat.le_min.mpr ⟨?_, by decide⟩
      exact Nat.le_mul_of_pos_right _ (Nat.pow_pos (by decide))
    · exact Nat.le_trans (Nat.min_le_right _ _) (by decide)

theorem le_backoffFor_some (count secs : Nat) : seconds (min secs 300) ≤ (backoffFor count (some secs)).1 := by
  refine Nat.le_trans (Nat.le_min.mpr ⟨?_, ?_⟩) (Nat.le_max_right _ _)
  · exact Nat.mul_le_mul_right _ (Nat.min_le_left _ _)
  · exact Nat.mul_le_mul_right _ (Nat.min_le_right _ _)

/-- A throttled response leaves its call with a deadline to move to. -/
theorem arming_of_throttle {serverSecs : Option Nat}
    (stepped : governor.step (.call number (.respond (some response))) = some next)
    (throttle : throttleDelay response = some serverSecs) : next.calls[number]? = some (.arming
      (governor.shared.clock + (backoffFor governor.shared.consecutiveThrottles serverSecs).1)) := by
  obtain ⟨phase, shared, nextPhase, _, acted, _, arrived⟩ := phase_of_call stepped
  cases acted with
  | throttled delay =>
    cases throttle.symm.trans delay
    exact arrived
  | succeeded accepted _ => exact absurd (accepted.symm.trans throttle) (Option.some_ne_none _).symm
  | answered accepted _ => exact absurd (accepted.symm.trans throttle) (Option.some_ne_none _).symm

/-- Whatever happens before the call of a throttled response moves the deadline, it can, and
the deadline then lies between two and three hundred seconds after the response, and as long
after it as the server asked for, unless it was later already. -/
theorem deadline_of_throttle {next later : Governor}
    {serverSecs : Option Nat}
    (stepped : governor.step (.call number (.respond (some response))) = some next)
    (throttle : throttleDelay response = some serverSecs) (steps : Steps step next schedule later)
    (unarmed : .call number .arm ∉ schedule) : ∃ armed deadline, later.step (.call number .arm) = some armed ∧
      armed.shared.suspendedUntil = some deadline ∧ governor.shared.clock + seconds 2 ≤ deadline ∧
      (deadline ≤ governor.shared.clock + seconds 300 ∨ later.shared.suspendedUntil = some deadline) ∧
      ∀ secs, serverSecs = some secs → governor.shared.clock + seconds (min secs 300) ≤ deadline := by
  have still := arming_of_steps (arming_of_throttle stepped throttle) steps unarmed
  obtain ⟨deadline, suspended, atLeast, _, which⟩ := exists_suspendedUntil later.shared
    (governor.shared.clock + (backoffFor governor.shared.consecutiveThrottles serverSecs).1)
  obtain ⟨low, high⟩ := le_backoffFor governor.shared.consecutiveThrottles serverSecs
  refine ⟨_, deadline, by unfold step; dsimp only; rw [still]; rfl, suspended,
    Nat.le_trans (Nat.add_le_add_left low _) atLeast, ?_, ?_⟩
  · rcases which with rfl | already
    · exact .inl (Nat.add_le_add_left high _)
    · exact .inr already
  · rintro secs rfl
    exact Nat.le_trans (Nat.add_le_add_left (le_backoffFor_some _ secs) _) atLeast

/-! ## What a call read last -/

/-- In the schedule the last read of the call found this deadline. -/
def LastRead (clock : Nat) (schedule : List Move) (governor : Governor) (number : Nat)
    (deadline : Option Nat) : Prop :=
  ∃ first rest before after, schedule = first ++ .call number .read :: rest ∧
    .call number .read ∉ rest ∧ Reaches clock first before ∧
    before.step (.call number .read) = some after ∧ Steps step after rest governor ∧
    before.shared.suspendedUntil = deadline

theorem LastRead.concat
    {deadline : Option Nat} (last : LastRead clock schedule governor number deadline)
    (noRead : move ≠ .call number .read) (stepped : governor.step move = some next) :
    LastRead clock (schedule ++ [move]) next number deadline := by
  obtain ⟨first, rest, before, after, rfl, unread, reached, read, steps, found⟩ := last
  refine ⟨first, rest ++ [move], before, after, by rw [List.append_assoc, List.cons_append], ?_,
    reached, read, steps.append (.single stepped), found⟩
  intro mem
  rcases List.mem_append.mp mem with earlier | this
  · exact unread earlier
  · exact noRead (List.mem_singleton.mp this).symm

/-- A call that has read the deadline knows what its last read found, and one that is about
to send knows that it has passed. -/
def Informed (clock : Nat) (schedule : List Move) (governor : Governor) : Prop :=
  ∀ number deadline,
    (governor.calls[number]? = some (.read deadline) → LastRead clock schedule governor number deadline) ∧
    (governor.calls[number]? = some (.cleared deadline) → LastRead clock schedule governor number deadline ∧
        ∀ instant, deadline = some instant → instant ≤ governor.shared.clock)

theorem phase_before_elsewhere {phase : Phase}
    (found : next.calls[number]? = some phase) (notNew : phase ≠ .waiting)
    (elsewhere : Elsewhere number move) (stepped : governor.step move = some next) :
    governor.calls[number]? = some phase := by
  cases move with
  | request =>
    cases stepped
    rcases Nat.lt_or_ge number governor.calls.length with inRange | outside
    · rw [List.getElem?_append_left inRange] at found
      exact found
    · rw [List.getElem?_append_right outside] at found
      have new := List.mem_of_getElem? found
      exact absurd (List.mem_singleton.mp new) notNew
  | tick elapsed => cases stepped; exact found
  | call other act =>
    obtain ⟨_, shared, nextPhase, _, _, rfl⟩ := step_call_cases stepped
    have different : other ≠ number := fun same => elsewhere act (by rw [same])
    rw [List.getElem?_set_ne different] at found
    exact found

theorem informed_step
    (reached : Reaches clock schedule governor) (informed : Informed clock schedule governor)
    (stepped : governor.step move = some next) : Informed clock (schedule ++ [move]) next := by
  intro number deadline
  by_cases here : ∃ act, move = .call number act
  · obtain ⟨act, rfl⟩ := here
    obtain ⟨phase, shared, nextPhase, found, acted, same, arrived⟩ := phase_of_call stepped
    constructor
    · intro nowRead
      cases arrived.symm.trans nowRead
      cases acted with
      | read =>
        exact ⟨schedule, [], governor, next, rfl, List.not_mem_nil, reached, stepped, .nil next, rfl⟩
    · intro nowCleared
      cases arrived.symm.trans nowCleared
      cases acted with
      | cleared passed =>
        refine ⟨((informed number deadline).1 found).concat ?_ stepped, ?_⟩
        · exact fun wrong => Act.noConfusion (Move.call.inj wrong).2
        · rw [same]
          exact passed
  · have elsewhere : Elsewhere number move := fun act same => here ⟨act, same⟩
    constructor
    · intro found
      have before := phase_before_elsewhere found Phase.noConfusion elsewhere stepped
      exact ((informed number deadline).1 before).concat (elsewhere .read) stepped
    · intro found
      have before := phase_before_elsewhere found Phase.noConfusion elsewhere stepped
      obtain ⟨last, passed⟩ := (informed number deadline).2 before
      exact ⟨last.concat (elsewhere .read) stepped,
        fun instant known => Nat.le_trans (passed instant known) (clock_le_step stepped)⟩

theorem informed_of_reaches
    (reached : Reaches clock schedule governor) : Informed clock schedule governor :=
  reached.linked (Informed clock)
    (fun _ _ _ _ reached informed stepped => informed_step reached informed stepped)
    fun number deadline => ⟨fun found => (by cases found), fun found => (by cases found)⟩

/-- A request is sent only when the deadline its call read last has passed. -/
theorem passed_of_send
    (reached : Reaches clock schedule governor) (sent : governor.step (.call number .send) = some next) :
    ∃ deadline, LastRead clock schedule governor number deadline ∧
      ∀ instant, deadline = some instant → instant ≤ governor.shared.clock := by
  obtain ⟨phase, shared, nextPhase, found, acted, _⟩ := phase_of_call sent
  cases acted with
  | sent => exact ⟨_, (informed_of_reaches reached number _).2 found⟩

/-! ## Throttles in a row -/

/-- The move is a throttled response that names no delay. -/
def isHeaderless : Move → Bool
  | .call _ (.respond (some response)) => throttleDelay response = some none
  | _ => false

/-- The move is a response that ends a row: a 2xx, or a throttle that names a delay. -/
def endsRow : Move → Bool
  | .call _ (.respond (some response)) =>
    match throttleDelay response with
    | some (some _) => true
    | some none => false
    | none => 200 ≤ response.status ∧ response.status < 300
  | _ => false

/-- The number of throttles without a delay since the row was last ended. -/
def streak (schedule : List Move) : Nat :=
  schedule.foldl (fun count move => if endsRow move then 0 else if isHeaderless move then count + 1 else count) 0

theorem streak_concat (schedule : List Move) (move : Move) : streak (schedule ++ [move]) =
      if endsRow move then 0 else if isHeaderless move then streak schedule + 1 else streak schedule := by
  unfold streak
  rw [List.foldl_append]
  rfl

section Row

variable {schedule : List Move} {number : Nat} {response : RestResponse}

theorem streak_of_headerless (delay : throttleDelay response = some none) :
    streak (schedule ++ [.call number (.respond (some response))]) = streak schedule + 1 := by
  rw [streak_concat]
  simp [endsRow, isHeaderless, delay]

theorem streak_of_delay {secs : Nat} (delay : throttleDelay response = some (some secs)) :
    streak (schedule ++ [.call number (.respond (some response))]) = 0 := by
  rw [streak_concat]
  simp [endsRow, delay]

theorem streak_of_success (accepted : throttleDelay response = none)
    (success : 200 ≤ response.status ∧ response.status < 300) :
    streak (schedule ++ [.call number (.respond (some response))]) = 0 := by
  rw [streak_concat]
  simp [endsRow, accepted, success.1, success.2]

theorem streak_of_answer (accepted : throttleDelay response = none)
    (noSuccess : ¬ (200 ≤ response.status ∧ response.status < 300)) :
    streak (schedule ++ [.call number (.respond (some response))]) = streak schedule := by
  have noEnd : endsRow (.call number (.respond (some response))) = false := by
    simp only [endsRow, accepted]
    exact decide_eq_false noSuccess
  have noThrottle : isHeaderless (.call number (.respond (some response))) = false := by
    simp [isHeaderless, accepted]
  rw [streak_concat, noEnd, noThrottle]
  rfl

end Row

/-- The counter of the governor is the length of the row, up to its width. -/
theorem consecutiveThrottles_of_reaches
    (reached : Reaches clock schedule governor) :
    governor.shared.consecutiveThrottles = streak schedule % 2 ^ 32 := by
  refine reached.linked
    (fun schedule governor => governor.shared.consecutiveThrottles = streak schedule % 2 ^ 32)
    (fun schedule governor move next _ counted stepped => ?_) rfl
  cases move with
  | request => cases stepped; rw [streak_concat]; exact counted
  | tick elapsed => cases stepped; rw [streak_concat]; exact counted
  | call number act =>
    obtain ⟨phase, shared, nextPhase, _, acted, rfl⟩ := step_call_cases stepped
    cases acted with
    | @throttled response serverSecs delay =>
      cases serverSecs with
      | some secs => rw [streak_of_delay delay]; rfl
      | none =>
        rw [streak_of_headerless delay, ← Nat.mod_add_mod, ← counted]
        rfl
    | succeeded accepted success => rw [streak_of_success accepted success]; rfl
    | answered accepted noSuccess => rw [streak_of_answer accepted noSuccess]; exact counted
    | armed =>
      rw [streak_concat, Shared.suspend_eq]
      exact counted
    | _ => rw [streak_concat]; exact counted

theorem backoffFor_none (count : Nat) : (backoffFor count none).1 = seconds (min (2 * 2 ^ count) 60) := by
  unfold backoffFor
  dsimp only
  rcases Nat.le_total count 5 with few | many
  · rw [Nat.min_eq_left few]
    unfold defaultBackoffBase maxDefaultBackoff seconds
    rw [Nat.mul_right_comm, Nat.mul_min_mul_right]
  · have capped : 60 ≤ 2 * 2 ^ count := by
      have := Nat.pow_le_pow_right (show 0 < 2 by decide) many
      omega
    rw [Nat.min_eq_right many, Nat.min_eq_right capped]
    rfl

/-- The throttle that follows `i` others in a row, none of which names a delay, arms a wait of
`2 * 2 ^ i` seconds, sixty at most; the counter of the row has 32 bits. -/
theorem wait_of_headerless (reached : Reaches clock schedule governor)
    (stepped : governor.step (.call number (.respond (some response))) = some next)
    (headerless : throttleDelay response = some none) : next.calls[number]? = some (.arming
      (governor.shared.clock + seconds (min (2 * 2 ^ (streak schedule % 2 ^ 32)) 60))) := by
  rw [← consecutiveThrottles_of_reaches reached, ← backoffFor_none]
  exact arming_of_throttle stepped headerless

/-- At most four requests are in flight; the deadline never moves back; a request is sent only
when the deadline its call read last has passed; a throttled response, once its call has moved
the deadline, leaves it between two and three hundred seconds after its arrival or where it was
later already, and as late as the server asked for; and the throttle after `i` others in a row
that name no delay arms a wait of `2 * 2 ^ i` seconds, sixty at most, as long as `i` fits the
32 bits of the counter. -/
theorem governor_keeps_the_rate (clock : Nat) :
    (∀ schedule governor, Reaches clock schedule governor → governor.inFlight ≤ maxInFlight) ∧
    (∀ schedule governor rest later, Reaches clock schedule governor → Steps step governor rest later →
      NotBefore governor.shared.suspendedUntil later.shared.suspendedUntil) ∧
    (∀ schedule governor next number, Reaches clock schedule governor → governor.step (.call number .send) = some next →
      ∃ deadline, LastRead clock schedule governor number deadline ∧
        ∀ instant, deadline = some instant → instant ≤ governor.shared.clock) ∧
    (∀ schedule governor next number response serverSecs rest later, Reaches clock schedule governor →
      governor.step (.call number (.respond (some response))) = some next →
      throttleDelay response = some serverSecs → Steps step next rest later → .call number .arm ∉ rest →
      ∃ armed deadline, later.step (.call number .arm) = some armed ∧ armed.shared.suspendedUntil = some deadline ∧
        governor.shared.clock + seconds 2 ≤ deadline ∧
        (deadline ≤ governor.shared.clock + seconds 300 ∨ later.shared.suspendedUntil = some deadline) ∧
        ∀ secs, serverSecs = some secs → governor.shared.clock + seconds (min secs 300) ≤ deadline) ∧
    ∀ schedule governor next number response, Reaches clock schedule governor →
      governor.step (.call number (.respond (some response))) = some next →
      throttleDelay response = some none → streak schedule < 2 ^ 32 → next.calls[number]? =
        some (.arming (governor.shared.clock + seconds (min (2 * 2 ^ streak schedule) 60))) := by
  refine ⟨fun schedule governor reached => ?_, fun _ _ _ _ _ steps => notBefore_of_steps steps,
    fun _ _ _ _ reached sent => passed_of_send reached sent,
    fun _ _ _ _ _ _ _ _ _ stepped throttle steps unarmed =>
      deadline_of_throttle stepped throttle steps unarmed,
    fun schedule governor next number response reached stepped headerless fits => ?_⟩
  · have balanced := balanced_of_reaches reached
    exact Nat.le_trans (inFlight_le_holders governor) (balanced ▸ Nat.le_add_left _ _)
  · have wait := wait_of_headerless reached stepped headerless
    rw [Nat.mod_eq_of_lt fits] at wait
    exact wait

/-! ### A row longer than the counter -/

/-- A move of the call that began last. -/
theorem step_last {shared next : Shared} {phase nextPhase : Phase} {act : Act}
    (acts : shared.act phase act = some (next, nextPhase)) (calls : List Phase) :
    step ⟨shared, calls ++ [phase]⟩ (.call calls.length act) = some ⟨next, calls ++ [nextPhase]⟩ := by
  unfold step
  dsimp only
  rw [List.getElem?_append_right (Nat.le_refl _), Nat.sub_self, List.getElem?_cons_zero,
    Option.bind_some, acts, Option.map_some]
  dsimp only
  rw [List.set_append_right _ _ (Nat.le_refl _), Nat.sub_self]
  rfl

/-- A permit is free and no deadline is ahead. -/
def Idle (governor : Governor) : Prop :=
  0 < governor.shared.permits ∧
    ∀ instant, governor.shared.suspendedUntil = some instant → instant ≤ governor.shared.clock

/-- The moves of a new call up to its request. -/
def sending (number : Nat) : List Move :=
  [.request, .call number .acquire, .call number .read, .call number .compare, .call number .send]

/-- An idle governor sends the request of a new call. -/
theorem steps_sending (idle : governor.Idle) :
    Steps step governor (sending governor.calls.length)
      ⟨{ governor.shared with permits := governor.shared.permits - 1 }, governor.calls ++ [.inFlight]⟩ := by
  obtain ⟨shared, calls⟩ := governor
  obtain ⟨free, passed⟩ := idle
  let taken : Shared := { shared with permits := shared.permits - 1 }
  have acquired : shared.act .waiting .acquire = some (taken, .checking) := if_pos free
  have cleared : taken.act (.read taken.suspendedUntil) .compare =
      some (taken, .cleared taken.suspendedUntil) := by
    cases known : taken.suspendedUntil with
    | none => rfl
    | some instant => exact if_neg (Nat.not_lt.mpr (passed instant known))
  refine .cons rfl (.cons (step_last acquired calls) (.cons (step_last rfl calls) ?_))
  exact .cons (step_last cleared calls) (.cons (step_last rfl calls) (.nil _))

theorem streak_sending (schedule : List Move) (number : Nat) :
    streak (schedule ++ sending number) = streak schedule := by
  unfold streak
  rw [List.foldl_append]
  rfl

/-- A response that throttles and names no delay. -/
def silentThrottle : RestResponse := ⟨429, []⟩

/-- A request in flight is throttled without a delay. -/
theorem step_silentThrottle (shared : Shared) (calls : List Phase) :
    step ⟨shared, calls ++ [.inFlight]⟩ (.call calls.length (.respond (some silentThrottle))) =
      some ⟨(shared.receive (some silentThrottle)).1, calls ++ [(shared.receive (some silentThrottle)).2]⟩ :=
  step_last rfl calls

/-- A row of throttles can be as long as one likes. -/
theorem exists_row (clock count : Nat) :
    ∃ schedule governor, Reaches clock schedule governor ∧ streak schedule = count ∧ governor.Idle := by
  induction count with
  | zero =>
    have free : 0 < maxInFlight := by decide
    exact ⟨[], new clock, .nil _, rfl, free, fun instant known => by cases known⟩
  | succ count ih =>
    obtain ⟨schedule, governor, reached, row, idle⟩ := ih
    let taken : Shared := { governor.shared with permits := governor.shared.permits - 1 }
    let throttled := taken.receive (some silentThrottle)
    let wait := (backoffFor governor.shared.consecutiveThrottles none).1
    let armed := (throttled.1.suspend (governor.shared.clock + wait)).release
    let number := governor.calls.length
    have responded := step_silentThrottle taken governor.calls
    have arms : step ⟨throttled.1, governor.calls ++ [throttled.2]⟩ (.call number .arm) =
        some ⟨armed, governor.calls ++ [.finished]⟩ := step_last rfl governor.calls
    have ticked : step ⟨armed, governor.calls ++ [.finished]⟩ (.tick (seconds 60)) =
        some ⟨{ armed with clock := armed.clock + seconds 60 }, governor.calls ++ [.finished]⟩ := rfl
    refine ⟨(schedule ++ sending number ++ [.call number (.respond (some silentThrottle))]) ++
        [.call number .arm, .tick (seconds 60)], _,
      ((reached.append (steps_sending idle)).append (.single responded)).append
        (.cons arms (.single ticked)), ?_, ?_, ?_⟩
    · have longer : streak (schedule ++ sending number ++ [.call number (.respond (some silentThrottle))]) =
          count + 1 := by
        rw [streak_of_headerless (by decide), streak_sending, row]
      rw [← longer]
      unfold streak
      rw [List.foldl_append]
      rfl
    · exact Nat.succ_pos _
    · intro instant known
      obtain ⟨later, suspended, _, _, which⟩ :=
        exists_suspendedUntil throttled.1 (governor.shared.clock + wait)
      have clock : armed.clock = governor.shared.clock := by
        show (throttled.1.suspend (governor.shared.clock + wait)).clock = _
        rw [Shared.suspend_eq]
        rfl
      have same : later = instant := Option.some.inj (suspended.symm.trans known)
      show instant ≤ armed.clock + seconds 60
      rw [clock, ← same]
      rcases which with rfl | already
      · exact Nat.add_le_add_left (Nat.min_le_right _ _) _
      · exact Nat.le_trans (idle.2 later already) (Nat.le_add_right _ _)

/-- The second of two throttles arms a wait of four seconds. -/
theorem governor_keeps_the_rate_twice :
    ∃ governor next : Governor, ∃ number, governor.step (.call number (.respond (some silentThrottle))) = some next ∧
      next.calls[number]? = some (.arming (governor.shared.clock + seconds 4)) := by
  obtain ⟨schedule, governor, reached, row, idle⟩ := exists_row 0 1
  have responded := step_silentThrottle { governor.shared with permits := governor.shared.permits - 1 } governor.calls
  have sent := reached.append (steps_sending idle)
  have waits := (governor_keeps_the_rate 0).2.2.2.2 _ _ _ governor.calls.length silentThrottle sent responded
    (by decide) (by rw [streak_sending, row]; decide)
  rw [streak_sending, row] at waits
  exact ⟨_, _, _, responded, waits⟩
/-- After `2 ^ 32` throttles in a row that name no delay the next wait is two seconds. -/
theorem counter_wraps : ¬ ∀ clock schedule governor next number response, Reaches clock schedule governor →
    governor.step (.call number (.respond (some response))) = some next → throttleDelay response = some none →
    next.calls[number]? = some (.arming (governor.shared.clock + seconds (min (2 * 2 ^ streak schedule) 60))) := by
  intro claim
  obtain ⟨schedule, governor, reached, row, idle⟩ := exists_row 0 (2 ^ 32)
  let taken : Shared := { governor.shared with permits := governor.shared.permits - 1 }
  have responded := step_silentThrottle taken governor.calls
  have sent := reached.append (steps_sending idle)
  have claimed := claim 0 _ _ _ governor.calls.length silentThrottle sent responded (by decide)
  have actual := wait_of_headerless sent responded (by decide)
  rw [streak_sending, row] at actual
  rw [streak_sending] at claimed
  have long : 60 ≤ 2 * 2 ^ streak schedule := by
    have five : 5 ≤ streak schedule := by
      rw [row]
      decide
    have := Nat.pow_le_pow_right (show 0 < 2 by decide) five
    omega
  rw [Nat.min_eq_right long] at claimed
  have same := Phase.arming.inj (Option.some.inj (actual.symm.trans claimed))
  exact absurd (Nat.add_left_cancel same) (by decide)

end Governor

end TutaBridge.Net
