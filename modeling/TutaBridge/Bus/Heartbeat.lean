import TutaBridge.Bus.Reconnecting

/-!
# The heartbeat and the idle timeout

While a connection is open a task puts a tick in a channel now and then, and the read loop sends
a ping for each. The loop also gives up a connection on which no frame came for a while. But it
asks for the timeout anew in each of its rounds, and a tick ends a round like a frame does: what
it measures is the time since the last tick, and the silence of the server is never noticed.
-/

namespace TutaBridge.Bus

open TutaBridge.Std

/-- `HEARTBEAT_INTERVAL`, in milliseconds. -/
def heartbeatInterval : Nat := 60000

/-- `IDLE_TIMEOUT`, in milliseconds. -/
def idleTimeout : Nat := 90000

/-- The room in the channel of ticks. -/
def tickCapacity : Nat := 2

/-! ## Runs in time -/

/-- The heartbeat task: it sleeps, or its tick waits for room in the channel. -/
inductive Heart where
  | sleeping (wakes : Nat)
  | sending
deriving DecidableEq, Repr

/-- A run with its clock. `selecting` is since when the read loop waits in its select; it is busy
with what woke it otherwise. -/
structure TimedRun where
  run : BusRun
  now : Nat
  selecting : Option Nat
  heart : Option Heart
  ticks : Nat

/-- Time passes, the heartbeat task moves, the loop is back at its select, or the run moves. -/
inductive TimedMove where
  | elapse (millis : Nat)
  | beat
  | queued
  | resume
  | act (move : BusMove)
deriving DecidableEq, Repr

namespace TimedRun

/-- What of the run the clock says more about. -/
inductive Awaited where
  | tick
  | timeout
  | read
  | connection
  | nothing

/-- What a move of the run waits for. -/
def awaited (phase : Phase) : BusMove → Awaited
  | .heartbeat _ _ => .tick
  | .idle _ => .timeout
  | .frame _ _ _ | .frameError _ | .streamEnd _ => .read
  | .stop => if phase = .reading then .read else .nothing
  | .connected => .connection
  | _ => .nothing

section Step

variable (settings : BusSettings) (interval timeout late : Nat)

/-- Time passes while nobody has anything to do. A tick comes `late` behind its time at most. -/
def mayElapse (timed : TimedRun) (millis : Nat) : Bool :=
  (match timed.selecting with
    | some since => timed.ticks = 0 && timed.now + millis ≤ since + timeout
    | none => true) &&
  match timed.heart with
  | some (.sleeping wakes) => timed.now + millis ≤ wakes + late
  | some .sending => timed.ticks = tickCapacity
  | none => true

/-- A connection that is no longer read has no heartbeat. -/
def settle (timed : TimedRun) : TimedRun :=
  if timed.run.phase = .reading then timed else { timed with selecting := none, heart := none, ticks := 0 }

/-- A move of the run, where the clock allows it. -/
def act (timed : TimedRun) (move : BusMove) : Option TimedRun :=
  match awaited timed.run.phase move, timed.selecting with
  | .tick, some _ =>
    if timed.ticks = 0 then none
    else (timed.run.step settings move).map fun run =>
      settle { timed with run, selecting := none, ticks := timed.ticks - 1 }
  | .timeout, some since =>
    if since + timeout ≤ timed.now then
      (timed.run.step settings move).map fun run => settle { timed with run, selecting := none }
    else none
  | .read, some _ =>
    (timed.run.step settings move).map fun run => settle { timed with run, selecting := none }
  | .connection, _ =>
    (timed.run.step settings move).map fun run =>
      { timed with
        run
        selecting := some timed.now
        heart := some (.sleeping (timed.now + interval))
        ticks := 0 }
  | .nothing, _ => (timed.run.step settings move).map fun run => settle { timed with run }
  | _, _ => none

/-- A step in time. -/
def step (timed : TimedRun) : TimedMove → Option TimedRun
  | .elapse millis =>
    if timed.mayElapse timeout late millis then some { timed with now := timed.now + millis } else none
  | .beat =>
    match timed.heart with
    | some (.sleeping wakes) =>
      if wakes ≤ timed.now then
        if timed.ticks < tickCapacity then
          some { timed with heart := some (.sleeping (timed.now + interval)), ticks := timed.ticks + 1 }
        else some { timed with heart := some .sending }
      else none
    | _ => none
  | .queued =>
    if timed.heart = some .sending ∧ timed.ticks < tickCapacity then
      some { timed with heart := some (.sleeping (timed.now + interval)), ticks := timed.ticks + 1 }
    else none
  | .resume =>
    if timed.run.phase = .reading ∧ timed.selecting = none then
      some { timed with selecting := some timed.now }
    else none
  | .act move => timed.act settings interval timeout move

end Step

/-- The client is called at a moment. -/
def start (lastBatchIds : List (Text × Text)) (now : Nat) : TimedRun where
  run := .start lastBatchIds
  now
  selecting := none
  heart := none
  ticks := 0

/-! ## The timeout -/

section Timeout

variable {settings : BusSettings} {interval timeout late : Nat}

/-- A tick is due, or in the channel, before the timeout is over. -/
structure Fresh (interval timeout late : Nat) (timed : TimedRun) : Prop where
  heart : timed.run.phase = .reading → timed.heart ≠ none
  wakes : ∀ wakes, timed.heart = some (.sleeping wakes) →
    wakes ≤ timed.now + interval ∧ timed.now ≤ wakes + late
  reading : ∀ since, timed.selecting = some since → timed.run.phase = .reading
  selecting : ∀ since, timed.selecting = some since → since ≤ timed.now ∧ timed.now < since + timeout ∧
    (timed.ticks = 0 → ∀ wakes, timed.heart = some (.sleeping wakes) → wakes ≤ since + interval)

variable {timed next : TimedRun} {move : BusMove}

/-- Only a connection begins to be read. -/
theorem reading_of_step {run later : BusRun} (stepped : run.step settings move = some later)
    (reading : later.phase = .reading) : move = .connected ∨ run.phase = .reading := by
  cases BusRun.moves_of_step stepped with
  | connected => exact .inl rfl
  | raise => exact .inr reading
  | cursors => exact .inr reading
  | heartbeat => exact .inr reading
  | message => exact .inr reading
  | pong => exact .inr reading
  | skip => exact .inr reading
  | _ => cases reading

theorem fresh_settle {run : BusRun} {selecting : Option Nat} {ticks : Nat} (fresh : Fresh interval timeout late timed)
    (was : run.phase = .reading → timed.run.phase = .reading)
    (kept : selecting = none ∨ selecting = timed.selecting ∧ ticks = timed.ticks) :
    Fresh interval timeout late (settle { timed with run, selecting, ticks }) := by
  rw [settle]
  split
  case isTrue reading =>
      refine ⟨fun _ => fresh.heart (was reading), fresh.wakes, fun _ _ => reading, fun since selects => ?_⟩
      obtain rfl | ⟨rfl, rfl⟩ := kept
      · cases selects
      · exact fresh.selecting since selects
  case isFalse notReading =>
      exact ⟨fun reading => absurd reading notReading, nofun, nofun, nofun⟩

/-- While the loop waits, time does not reach the end of the timeout. -/
theorem fresh_elapse {millis : Nat} (prompt : interval + late < timeout) (fresh : Fresh interval timeout late timed)
    (elapses : timed.mayElapse timeout late millis) :
    Fresh interval timeout late { timed with now := timed.now + millis } := by
  rw [mayElapse, Bool.and_eq_true] at elapses
  obtain ⟨forLoop, forHeart⟩ := elapses
  refine ⟨fresh.heart, fun wakes sleeps => ?_, fresh.reading, fun since selects => ?_⟩
  · obtain ⟨soon, -⟩ := fresh.wakes wakes sleeps
    rw [sleeps] at forHeart
    exact ⟨by simp only; omega, of_decide_eq_true forHeart⟩
  · obtain ⟨began, -, due⟩ := fresh.selecting since selects
    rw [selects, Bool.and_eq_true, decide_eq_true_eq] at forLoop
    -- the channel is empty, so the heartbeat task sleeps, and wakes in time
    cases heart : timed.heart with
    | none => exact absurd heart (fresh.heart (fresh.reading since selects))
    | some heartIs =>
      cases heartIs with
      | sending =>
        rw [heart] at forHeart
        have full := of_decide_eq_true forHeart
        rw [forLoop.1] at full
        cases full
      | sleeping wakes =>
        rw [heart] at forHeart
        have inTime := of_decide_eq_true forHeart
        have bound := due forLoop.1 wakes heart
        refine ⟨by simp only; omega, by simp only; omega, fun _ other sleeps => ?_⟩
        obtain rfl := Heart.sleeping.inj (Option.some.inj sleeps)
        exact bound

/-- The heartbeat task puts a tick in the channel and sleeps. -/
theorem fresh_tick (fresh : Fresh interval timeout late timed) : Fresh interval timeout late
      { timed with heart := some (.sleeping (timed.now + interval)), ticks := timed.ticks + 1 } := by
  refine ⟨nofun, fun wakes sleeps => ?_, fresh.reading, fun since selects => ?_⟩
  · obtain rfl := Heart.sleeping.inj (Option.some.inj sleeps)
    exact ⟨le_rfl, by simp only; omega⟩
  · obtain ⟨began, before, -⟩ := fresh.selecting since selects
    exact ⟨began, before, fun empty => absurd empty (Nat.succ_ne_zero _)⟩

theorem reading_of_connection {run later : BusRun} {phase : Phase} (connects : awaited phase move = .connection)
    (stepped : run.step settings move = some later) : later.phase = .reading := by
  cases BusRun.moves_of_step stepped with
  | connected => rfl
  | failed fails =>
    cases move with
    | connected => cases fails
    | stop => cases fails
    | _ => cases connects
  | stop =>
    rw [awaited] at connects
    split at connects <;> cases connects
  | _ => cases connects

theorem fresh_act (prompt : interval + late < timeout) (fresh : Fresh interval timeout late timed)
    (acts : timed.act settings interval timeout move = some next) :
    Fresh interval timeout late next ∧ ∀ nanos, move ≠ .idle nanos := by
  have was : ∀ {run : BusRun}, awaited timed.run.phase move ≠ .connection →
      timed.run.step settings move = some run → run.phase = .reading → timed.run.phase = .reading :=
    fun notConnected stepped reading => (reading_of_step stepped reading).resolve_left fun connects => by
      subst connects
      exact notConnected rfl
  have notIdle : awaited timed.run.phase move ≠ .timeout → ∀ nanos, move ≠ .idle nanos := by
    rintro other nanos rfl
    exact other rfl
  rw [act] at acts
  split at acts
  case h_1 isTick _ =>
      split_ifs at acts
      obtain ⟨run, stepped, rfl⟩ := Option.map_eq_some_iff.mp acts
      exact ⟨fresh_settle fresh (was (by simp [isTick]) stepped) (.inl rfl), notIdle (by simp [isTick])⟩
  case h_2 since _ selects =>
      split_ifs at acts with isOver
      -- the loop has waited for less than the timeout
      have soon := (fresh.selecting since selects).2.1
      omega
  case h_3 isRead _ =>
      obtain ⟨run, stepped, rfl⟩ := Option.map_eq_some_iff.mp acts
      exact ⟨fresh_settle fresh (was (by simp [isRead]) stepped) (.inl rfl), notIdle (by simp [isRead])⟩
  case h_4 isConnection =>
      obtain ⟨run, stepped, rfl⟩ := Option.map_eq_some_iff.mp acts
      have reading := reading_of_connection isConnection stepped
      refine ⟨⟨nofun, fun wakes sleeps => ?_, fun _ _ => reading, fun since selects => ?_⟩,
        notIdle (by simp [isConnection])⟩
      · obtain rfl := Heart.sleeping.inj (Option.some.inj sleeps)
        exact ⟨le_rfl, by simp only; omega⟩
      · obtain rfl := Option.some.inj selects
        refine ⟨le_rfl, by simp only; omega, fun _ wakes sleeps => ?_⟩
        obtain rfl := Heart.sleeping.inj (Option.some.inj sleeps)
        exact le_rfl
  case h_5 isNothing =>
      obtain ⟨run, stepped, rfl⟩ := Option.map_eq_some_iff.mp acts
      exact ⟨fresh_settle fresh (was (by simp [isNothing]) stepped) (.inr ⟨rfl, rfl⟩), notIdle (by simp [isNothing])⟩
  case h_6 => cases acts

theorem fresh_step {label : TimedMove} (prompt : interval + late < timeout)
    (fresh : Fresh interval timeout late timed)
    (stepped : timed.step settings interval timeout late label = some next) :
    Fresh interval timeout late next ∧ ∀ nanos, label ≠ .act (.idle nanos) := by
  cases label with
  | elapse millis =>
    rw [step] at stepped
    split_ifs at stepped with elapses
    cases stepped
    exact ⟨fresh_elapse prompt fresh elapses, by simp⟩
  | beat =>
    rw [step] at stepped
    split at stepped
    · split_ifs at stepped with due room
      · cases stepped
        exact ⟨fresh_tick fresh, by simp⟩
      · cases stepped
        refine ⟨⟨nofun, nofun, fresh.reading, fun since selects => ?_⟩,
          by simp⟩
        obtain ⟨began, before, -⟩ := fresh.selecting since selects
        exact ⟨began, before, fun _ => nofun⟩
    · cases stepped
  | queued =>
    rw [step] at stepped
    split_ifs at stepped
    cases stepped
    exact ⟨fresh_tick fresh, by simp⟩
  | resume =>
    rw [step] at stepped
    split_ifs at stepped with back
    cases stepped
    refine ⟨⟨fresh.heart, fresh.wakes, fun _ _ => back.1, fun since selects => ?_⟩, by simp⟩
    obtain rfl := Option.some.inj selects
    exact ⟨le_rfl, by simp only; omega, fun _ wakes sleeps => (fresh.wakes wakes sleeps).1⟩
  | act move =>
    obtain ⟨later, notIdle⟩ := fresh_act prompt fresh stepped
    exact ⟨later, fun nanos same => notIdle nanos (TimedMove.act.inj same)⟩

/-- The silence of a server is noticed only if ticks come later than the timeout. -/
theorem late_of_idle {schedule : List TimedMove} {final : TimedRun} {lastBatchIds : List (Text × Text)}
    {now nanos : Nat}
    (steps : Steps (step settings interval timeout late) (start lastBatchIds now) schedule final)
    (gaveUp : .act (.idle nanos) ∈ schedule) : timeout ≤ interval + late := by
  by_contra prompt
  have prompt := Nat.lt_of_not_le prompt
  have linked := steps.linked (fun schedule timed => Fresh interval timeout late timed ∧
      ∀ nanos, .act (.idle nanos) ∉ schedule) ?_ ?_
  · exact linked.2 nanos gaveUp
  · intro schedule timed label next _ inv stepped
    obtain ⟨fresh, notIdle⟩ := fresh_step prompt inv.1 stepped
    refine ⟨fresh, fun nanos mem => ?_⟩
    obtain before | last := List.mem_append.mp mem
    · exact inv.2 nanos before
    · exact notIdle nanos (List.mem_singleton.mp last).symm
  · exact ⟨⟨nofun, nofun, nofun,
      nofun⟩, fun _ => List.not_mem_nil⟩

end Timeout

/-! ## A silent server -/

section Silence

variable {settings : BusSettings} {interval timeout late : Nat}

/-- A connection of which a frame was just asked for. -/
def quiet (interval : Nat) (run : BusRun) (now : Nat) : TimedRun where
  run
  now
  selecting := some now
  heart := some (.sleeping (now + interval))
  ticks := 0

/-- Silence for an interval: the heartbeat fires, the ping is sent and the loop waits again. -/
def silence (interval : Nat) : List TimedMove := [.elapse interval, .beat, .act (.heartbeat true 0), .resume]

theorem steps_silence {run : BusRun} (fits : interval ≤ timeout) (reading : run.phase = .reading) (now : Nat) :
    Steps (step settings interval timeout late) (quiet interval run now) (silence interval)
      (quiet interval { run with replies := run.replies ++ [.ping] } (now + interval)) := by
  have elapses : (quiet interval run now).mayElapse timeout late interval = true := by
    simp [mayElapse, quiet, fits]
  have written : run.step settings (.heartbeat true 0) = some { run with replies := run.replies ++ [.ping] } := by
    simp [BusRun.step, reading]
  have passes : step settings interval timeout late (quiet interval run now) (.elapse interval) =
      some { quiet interval run now with now := now + interval } := by
    rw [step, if_pos elapses]
    rfl
  have fires : step settings interval timeout late { quiet interval run now with now := now + interval } .beat =
      some { quiet interval run (now + interval) with selecting := some now, ticks := 1 } := by
    simp [step, quiet, tickCapacity]
  have sends : step settings interval timeout late
        { quiet interval run (now + interval) with selecting := some now, ticks := 1 }
        (.act (.heartbeat true 0)) =
      some { quiet interval { run with replies := run.replies ++ [.ping] } (now + interval) with
        selecting := none } := by
    simp [step, act, awaited, quiet, settle, written, reading]
  refine .cons passes (.cons fires (.cons sends (.single ?_)))
  simp [step, quiet, reading]

theorem steps_silences {run : BusRun} (fits : interval ≤ timeout) (reading : run.phase = .reading) (now count : Nat) :
    ∃ later : BusRun, later.phase = .reading ∧ Steps (step settings interval timeout late) (quiet interval run now)
        (List.replicate count (silence interval)).flatten (quiet interval later (now + count * interval)) := by
  induction count generalizing run now with
  | zero => exact ⟨run, reading, by simpa using Steps.nil (quiet interval run now)⟩
  | succ count ih =>
    obtain ⟨later, isReading, rest⟩ := @ih { run with replies := run.replies ++ [.ping] } reading
      (now + interval)
    refine ⟨later, isReading, ?_⟩
    rw [List.replicate_succ, List.flatten_cons, Nat.succ_mul, Nat.add_comm (count * interval), ← Nat.add_assoc]
    exact (steps_silence fits reading now).append rest

/-- The client connects at once. -/
def connecting : List TimedMove := [.act .attempt, .act .connected]

theorem steps_connecting (lastBatchIds : List (Text × Text)) (now : Nat) : ∃ run : BusRun, run.phase = .reading ∧
      Steps (step settings interval timeout late) (start lastBatchIds now) connecting (quiet interval run now) :=
  ⟨_, rfl, .cons rfl (.single rfl)⟩

/-- Where the heartbeat may be late enough, the timeout of a silent connection comes first. -/
theorem steps_idle {run : BusRun} (reading : run.phase = .reading) (isLate : timeout ≤ interval + late) (now : Nat) :
    ∃ final, Steps (step settings interval timeout late) (quiet interval run now)
      [.elapse timeout, .act (.idle 0)] final := by
  have elapses : (quiet interval run now).mayElapse timeout late timeout = true := by
    have inTime : now + timeout ≤ now + interval + late := by omega
    simp [mayElapse, quiet, inTime]
  have givesUp : run.step settings (.idle 0) = some (run.fail none 0) := by
    simp [BusRun.step, reading]
  have passes : step settings interval timeout late (quiet interval run now) (.elapse timeout) =
      some { quiet interval run now with now := now + timeout } := by
    rw [step, if_pos elapses]
    rfl
  have idles : step settings interval timeout late { quiet interval run now with now := now + timeout }
        (.act (.idle 0)) =
      some (settle { quiet interval run now with
        now := now + timeout, run := run.fail none 0, selecting := none }) := by
    simp [step, act, awaited, quiet, givesUp]
  exact ⟨_, .cons passes (.single idles)⟩

end Silence

/-- The read-side check is never of use: no run gives up a connection for the silence of the server,
unless the tick of a heartbeat is 30 seconds late; a run in which the server says nothing at all stays
connected for however long one waits. -/
theorem silence_is_not_noticed (settings : BusSettings) (late now : Nat) (lastBatchIds : List (Text × Text)) :
    ((∃ schedule final nanos, Steps (step settings heartbeatInterval idleTimeout late)
        (start lastBatchIds now) schedule final ∧ .act (.idle nanos) ∈ schedule) ↔ 30000 ≤ late) ∧
      ∀ count, ∃ final, final.run.phase = .reading ∧ final.now = now + count * heartbeatInterval ∧
        Steps (step settings heartbeatInterval idleTimeout late) (start lastBatchIds now)
          (connecting ++ (List.replicate count (silence heartbeatInterval)).flatten) final := by
  have difference : idleTimeout ≤ heartbeatInterval + late ↔ 30000 ≤ late := by
    rw [idleTimeout, heartbeatInterval]
    omega
  obtain ⟨run, reading, connected⟩ :=
    @steps_connecting settings heartbeatInterval idleTimeout late lastBatchIds now
  refine ⟨⟨?_, fun isLate => ?_⟩, fun count => ?_⟩
  · rintro ⟨schedule, final, nanos, steps, gaveUp⟩
    exact difference.mp (late_of_idle steps gaveUp)
  · obtain ⟨final, gaveUp⟩ := @steps_idle settings _ _ _ run reading (difference.mpr isLate) now
    exact ⟨_, final, 0, connected.append gaveUp, by simp [connecting]⟩
  · have fits : heartbeatInterval ≤ idleTimeout := by decide
    obtain ⟨later, isReading, rest⟩ := @steps_silences settings _ _ late run fits reading now count
    exact ⟨_, isReading, rfl, connected.append rest⟩

end TimedRun

end TutaBridge.Bus
