import TutaBridge.Std.Processes
import TutaBridge.Std.Steps

/-!
# The worker's processes

The supervisor starts a worker as the leader of a group of its own and is given, as subreaper, the children of every
process the worker leaves behind. To stop it, it sends the group a signal and then SIGKILL, waits for the worker, then
for what is left of the group that it can wait for, and last collects whatever else of its children has ended. The
worker is collected only after the last signal: as long as it is there, nobody else has its id or its group. Processes
start, move between groups and end at any time.
-/

namespace TutaBridge.Service

open TutaBridge.Std TutaBridge.Std.Processes

/-- Where `worker` and `terminate_group` stand. -/
inductive Phase where
  | idle
  | serving (leader : Nat)
  | terminating (leader : Nat)
  | killed (leader : Nat)
  | draining (leader : Nat)
  | sweeping
deriving DecidableEq, Repr

namespace Phase

/-- The worker that was not waited for. -/
def unreaped : Phase → Option Nat
  | .serving leader | .terminating leader | .killed leader => some leader
  | _ => none

/-- The group that the supervisor ends. -/
def group : Phase → Option Nat
  | .draining leader => some leader
  | phase => phase.unreaped

/-- The worker was not sent SIGKILL. -/
def spared : Phase → Bool
  | .serving _ | .terminating _ => true
  | _ => false

end Phase

/-- The processes there are, what the supervisor is at, and how many workers it started. -/
structure Supervision where
  processes : Processes
  phase : Phase
  round : Nat
deriving DecidableEq

namespace Supervision

/-- What happens next: a process of the surroundings or of the worker does something, or the supervisor does. -/
inductive Move where
  | fork (parent child : Nat)
  | move (id group : Nat)
  | exit (id : Nat)
  | collect (id : Nat)
  | spawn (leader : Nat)
  | reap (id : Nat)
  | terminate
  | kill
  | wait
  | drain (id : Nat)
  | drained
  | swept
deriving DecidableEq, Repr

section Supervisor

variable (supervisor others : Nat)

/-- The subreaper is given the orphans of its workers, and somebody else all others. -/
def adopter (family : Option Nat) : Nat := if family.isSome then supervisor else others

/-- A child is collected: one of whom this holds. -/
def collectChild (chosen : Process → Bool) (id : Nat) (processes : Processes) : Option Processes :=
  (processes.get? id).bind fun process =>
    if process.parent = supervisor ∧ chosen process then processes.collect id else none

/-- Nobody but the supervisor does this: it neither ends nor does what a worker does. -/
def surroundings (state : Supervision) : Move → Option Processes
  | .fork parent child => if parent = supervisor then none else state.processes.fork parent child
  | .move id group => if id = supervisor then none else state.processes.move id group
  | .exit id => if id = supervisor then none else state.processes.exit (adopter supervisor others) id
  | .collect id =>
    (state.processes.get? id).bind fun process =>
      if process.parent = supervisor then none else state.processes.collect id
  | _ => none

/-- The supervisor goes on: `worker`, `reap_agents` and `terminate_group`, as on Linux. -/
def supervised (state : Supervision) (move : Move) : Option Supervision :=
  match state.phase, move with
  | .idle, .spawn leader =>
    (state.processes.spawn supervisor leader (state.round + 1)).map (⟨·, .serving leader, state.round + 1⟩)
  | .idle, .reap id =>
    (collectChild supervisor (fun _ => true) id state.processes).map ({ state with processes := · })
  | .serving leader, .reap id =>
    -- the worker's id stays reserved
    if id = leader then none
    else (collectChild supervisor (fun _ => true) id state.processes).map ({ state with processes := · })
  | .serving leader, .terminate => some { state with phase := .terminating leader }
  | .terminating leader, .kill =>
    some { state with processes := state.processes.killGroup leader, phase := .killed leader }
  | .killed leader, .wait =>
    (collectChild supervisor (fun _ => true) leader state.processes).map (⟨·, .draining leader, state.round⟩)
  | .draining leader, .drain id =>
    (collectChild supervisor (fun process => process.group = leader) id state.processes).map
      ({ state with processes := · })
  | .draining leader, .drained =>
    if ∀ row ∈ state.processes.rows, row.2.parent = supervisor → row.2.group ≠ leader then
      some { state with phase := .sweeping }
    else none
  | .sweeping, .reap id =>
    (collectChild supervisor (fun _ => true) id state.processes).map ({ state with processes := · })
  | .sweeping, .swept =>
    if ∀ row ∈ state.processes.rows, row.2.parent = supervisor → row.2.ended = false then
      some { state with phase := .idle }
    else none
  | _, _ => none

def step (state : Supervision) (move : Move) : Option Supervision :=
  match surroundings supervisor others state move with
  | some processes => some { state with processes := processes }
  | none => supervised supervisor state move

/-- Before the first worker: whatever processes there are, none is of a worker. -/
def booted (processes : Processes) : Supervision :=
  ⟨processes.mapValues fun process => { process with family := none }, .idle, 0⟩

/-! ## What the supervisor keeps -/

/-- Whom a signal reaches, who is left, and where each process of a worker comes from. -/
structure Sound (state : Supervision) : Prop where
  rooted : Rooted supervisor state.processes
  rounds : ∀ id process round, state.processes.get? id = some process → process.family = some round →
    round ≤ state.round
  leads : ∀ leader ∈ state.phase.unreaped, IsChild supervisor (some state.round) leader state.processes
  loyal : ∀ leader ∈ state.phase.group, ∀ id process, state.processes.get? id = some process → process.loyal = true →
    process.family = some state.round → process.group = leader
  doomed : ∀ id process round, state.processes.get? id = some process → process.loyal = true →
    process.family = some round → round < state.round ∨ state.phase.spared = false → process.doomed = true

variable {supervisor others : Nat} {state next : Supervision}

theorem sound_booted (processes : Processes) : Sound supervisor (booted processes) := by
  have nobody : ∀ id process round, (booted processes).processes.get? id = some process →
      process.family ≠ some round := by
    intro id process round found
    rw [booted, Dict.get?_mapValues] at found
    obtain ⟨was, -, rfl⟩ := Option.map_eq_some_iff.mp found
    exact fun isFamily => nomatch isFamily
  refine ⟨?_, ?_, nofun, nofun, ?_⟩
  · exact fun id process round found isFamily => absurd isFamily (nobody id process round found)
  · exact fun id process round found isFamily => absurd isFamily (nobody id process round found)
  · exact fun id process round found _ isFamily => absurd isFamily (nobody id process round found)

/-- What processes do by themselves, or when one is collected, keeps what the supervisor relies on: a worker that was
not waited for is still there. -/
theorem Sound.evolves (sound : Sound supervisor state) {Joins : Nat → Process → Nat → Prop} {after : Processes}
    (evolves : Evolves (adopter supervisor others) Joins state.processes after)
    (leads : ∀ leader ∈ state.phase.unreaped, IsChild supervisor (some state.round) leader after) :
    Sound supervisor { state with processes := after } where
  rooted := sound.rooted.evolves (fun _ => rfl) evolves
  rounds := by
    intro id now round isNow isFamily
    cases evolves id now isNow with
    | kept was found goesOn => exact sound.rounds id was round found (goesOn.family.symm.trans isFamily)
    | moved was found goesOn => exact sound.rounds id was round found (goesOn.family.symm.trans isFamily)
    | born parent of found running spared survives child =>
      subst child
      exact sound.rounds parent of round found isFamily
  leads := leads
  loyal := by
    intro leader isGroup id now isNow isLoyal isFamily
    cases evolves id now isNow with
    | kept was found goesOn group loyal =>
      rw [group]
      exact sound.loyal leader isGroup id was found (loyal ▸ isLoyal) (goesOn.family.symm.trans isFamily)
    | moved was found goesOn group loyal =>
      rw [loyal] at isLoyal
      cases isLoyal
    | born parent of found running spared survives child =>
      subst child
      exact sound.loyal leader isGroup parent of found isLoyal isFamily
  doomed := by
    intro id now round isNow isLoyal isFamily isPast
    cases evolves id now isNow with
    | kept was found goesOn group loyal =>
      exact goesOn.doomed
        (sound.doomed id was round found (loyal ▸ isLoyal) (goesOn.family.symm.trans isFamily) isPast)
    | moved was found goesOn group loyal =>
      rw [loyal] at isLoyal
      cases isLoyal
    | born parent of found running spared survives child =>
      subst child
      -- whoever is doomed has no more children
      have isDoomed := sound.doomed parent of round found isLoyal isFamily isPast
      rw [spared] at isDoomed
      cases isDoomed

/-- A phase that follows, with the same processes. -/
theorem Sound.phase (sound : Sound supervisor state) {phase : Phase}
    (unreaped : ∀ leader ∈ phase.unreaped, leader ∈ state.phase.unreaped)
    (group : ∀ leader ∈ phase.group, leader ∈ state.phase.group)
    (spared : phase.spared = false → state.phase.spared = false) :
    Sound supervisor { state with phase := phase } where
  rooted := sound.rooted
  rounds := sound.rounds
  leads leader isLeader := sound.leads leader (unreaped leader isLeader)
  loyal leader isGroup := sound.loyal leader (group leader isGroup)
  doomed id process round found isLoyal isFamily isPast :=
    sound.doomed id process round found isLoyal isFamily (isPast.imp_right spared)

theorem collect_of_collectChild {before after : Processes} {chosen : Process → Bool} {id : Nat}
    (collected : collectChild supervisor chosen id before = some after) : before.collect id = some after := by
  obtain ⟨process, -, collected⟩ := Option.bind_eq_some_iff.mp collected
  split at collected
  · exact collected
  · cases collected

/-- A process that moves joins its own group or that of a relative. -/
def JoinsRelatives (state : Supervision) : Move → Prop
  | .move id group => ∀ row ∈ state.processes.rows, row.1 = id → state.processes.JoinsRelatives id row.2 group
  | _ => True

instance (state : Supervision) : DecidablePred (JoinsRelatives state)
  | .move _ _ => inferInstanceAs (Decidable (∀ row ∈ _, _))
  | .fork _ _ | .exit _ | .collect _ | .spawn _ | .reap _ | .terminate | .kill | .wait | .drain _ | .drained | .swept =>
    .isTrue trivial

/-- What the processes around the supervisor do, it did not do. -/
theorem evolves_surroundings {Joins : Nat → Process → Nat → Prop} {move : Move} {after : Processes}
    (moved : surroundings supervisor others state move = some after)
    (joins : ∀ id group, move = .move id group → ∀ was, state.processes.get? id = some was → Joins id was group) :
    Evolves (adopter supervisor others) Joins state.processes after := by
  cases move with
  | fork parent child => exact evolves_fork (Option.ite_none_left_eq_some.mp moved).2
  | move id group => exact evolves_move (Option.ite_none_left_eq_some.mp moved).2 (joins id group rfl)
  | exit id => exact evolves_exit (Option.ite_none_left_eq_some.mp moved).2
  | collect id =>
    obtain ⟨process, -, moved⟩ := Option.bind_eq_some_iff.mp moved
    exact evolves_collect (Option.ite_none_left_eq_some.mp moved).2
  | spawn | reap | terminate | kill | wait | drain | drained | swept => cases moved

section

variable (sound : Sound supervisor state)

include sound

/-- Nobody else ends the supervisor or collects its children. -/
theorem sound_surroundings {move : Move} {after : Processes}
    (moved : surroundings supervisor others state move = some after) :
    Sound supervisor { state with processes := after } := by
  refine sound.evolves (@evolves_surroundings _ _ _ (fun _ _ _ => True) _ _ moved fun _ _ _ _ _ => trivial)
    fun leader isLeader => ?_
  have leads := sound.leads leader isLeader
  cases move with
  | fork parent child => exact leads.fork (Option.ite_none_left_eq_some.mp moved).2
  | move id group => exact leads.move (Option.ite_none_left_eq_some.mp moved).2
  | exit id =>
    obtain ⟨stays, moved⟩ := Option.ite_none_left_eq_some.mp moved
    exact leads.exit stays moved
  | collect id =>
    obtain ⟨process, found, moved⟩ := Option.bind_eq_some_iff.mp moved
    obtain ⟨otherParent, moved⟩ := Option.ite_none_left_eq_some.mp moved
    refine leads.collect ?_ moved
    rintro rfl
    obtain ⟨worker, isWorker, isParent, -⟩ := leads
    rw [found] at isWorker
    cases isWorker
    exact otherParent isParent
  | spawn | reap | terminate | kill | wait | drain | drained | swept => cases moved

/-- A worker is started once the one before it is gone. -/
theorem sound_spawn (isIdle : state.phase = .idle) {leader : Nat} {after : Processes}
    (spawned : state.processes.spawn supervisor leader (state.round + 1) = some after) :
    Sound supervisor ⟨after, .serving leader, state.round + 1⟩ := by
  have rooted := sound.rooted.spawn spawned
  unfold Processes.spawn at spawned
  split at spawned
  next free =>
    cases spawned
    -- the worker, or a process there was
    have cases : ∀ id process, (state.processes.set leader
        ⟨supervisor, leader, false, false, some (state.round + 1), 0, true⟩).get? id = some process →
        id = leader ∧ process = ⟨supervisor, leader, false, false, some (state.round + 1), 0, true⟩ ∨
          state.processes.get? id = some process := by
      intro id process found
      rw [Dict.get?_set] at found
      split at found
      next same =>
        cases found
        exact .inl ⟨same, rfl⟩
      next => exact .inr found
    refine ⟨rooted, ?_, ?_, ?_, ?_⟩
    · intro id process round found isFamily
      rcases cases id process found with ⟨-, rfl⟩ | earlier
      · cases isFamily
        exact Nat.le_refl _
      · exact Nat.le_succ_of_le (sound.rounds id process round earlier isFamily)
    · rintro _ ⟨⟩
      exact ⟨_, by rw [Dict.get?_set, if_pos rfl], rfl, rfl⟩
    · rintro _ ⟨⟩ id process found isLoyal isFamily
      rcases cases id process found with ⟨-, rfl⟩ | earlier
      · rfl
      · exact absurd (sound.rounds id process _ earlier isFamily) (Nat.not_succ_le_self _)
    · intro id process round found isLoyal isFamily isPast
      rcases cases id process found with ⟨-, rfl⟩ | earlier
      · cases isFamily
        exact absurd isPast (by simp [Phase.spared])
      · exact sound.doomed id process round earlier isLoyal isFamily (.inr (by rw [isIdle]; rfl))
  next => cases spawned

/-- The last signal reaches everybody of the worker's who never left its group. -/
theorem sound_kill {leader : Nat} (terminating : state.phase = .terminating leader) :
    Sound supervisor { state with processes := state.processes.killGroup leader, phase := .killed leader } := by
  have unreaped : ∀ other ∈ (Phase.killed leader).unreaped, other ∈ state.phase.unreaped := by
    rw [terminating]
    exact fun other isLeader => isLeader
  have killed : Sound supervisor { state with processes := state.processes.killGroup leader } :=
    @Sound.evolves _ 0 _ sound (fun _ _ _ => True) _ (evolves_killGroup leader) fun other isLeader =>
      (sound.leads other isLeader).killGroup leader
  refine ⟨killed.rooted, killed.rounds, ?_, ?_, ?_⟩
  · exact fun other isLeader => killed.leads other (unreaped other isLeader)
  · exact fun other isLeader => killed.loyal other (by rw [terminating]; exact isLeader)
  · intro id process round found isLoyal isFamily _
    rcases Nat.lt_or_ge round state.round with earlier | current
    · exact killed.doomed id process round found isLoyal isFamily (.inl earlier)
    · have same : round = state.round := Nat.le_antisymm (killed.rounds id process round found isFamily) current
      subst same
      have isMember := killed.loyal leader (by rw [terminating]; rfl) id process found isLoyal isFamily
      exact doomed_of_killGroup found isMember

/-- A child of the supervisor is collected that is not the worker it still waits for. -/
theorem sound_collectChild {chosen : Process → Bool} {id : Nat} {after : Processes}
    (collected : collectChild supervisor chosen id state.processes = some after)
    (other : ∀ leader ∈ state.phase.unreaped, id ≠ leader) : Sound supervisor { state with processes := after } := by
  have collects := collect_of_collectChild collected
  exact @Sound.evolves _ 0 _ sound (fun _ _ _ => True) _ (evolves_collect collects) fun leader isLeader =>
    (sound.leads leader isLeader).collect (other leader isLeader) collects

theorem sound_supervised {move : Move}
    (moved : supervised supervisor state move = some next) : Sound supervisor next := by
  unfold supervised at moved
  split at moved
  next leader isIdle =>
    obtain ⟨after, spawned, rfl⟩ := Option.map_eq_some_iff.mp moved
    exact sound_spawn sound isIdle spawned
  next id idle =>
    obtain ⟨after, collected, rfl⟩ := Option.map_eq_some_iff.mp moved
    exact sound_collectChild sound collected (by rw [idle]; nofun)
  next leader id serving =>
    split at moved
    next => cases moved
    next different =>
      obtain ⟨after, collected, rfl⟩ := Option.map_eq_some_iff.mp moved
      refine sound_collectChild sound collected ?_
      rw [serving]
      rintro _ ⟨⟩
      exact different
  next leader serving =>
    cases moved
    refine sound.phase ?_ ?_ nofun <;> rw [serving] <;> exact fun other isLeader => isLeader
  next leader terminating =>
    cases moved
    exact sound_kill sound terminating
  next leader killed =>
    obtain ⟨after, collected, rfl⟩ := Option.map_eq_some_iff.mp moved
    -- from here on the worker's id is nobody's
    have gone : Sound supervisor { state with phase := .draining leader } := by
      refine sound.phase nofun ?_ ?_ <;> rw [killed]
      · exact fun other isLeader => isLeader
      · exact fun _ => rfl
    exact sound_collectChild gone collected nofun
  next leader id draining =>
    obtain ⟨after, collected, rfl⟩ := Option.map_eq_some_iff.mp moved
    exact sound_collectChild sound collected (by rw [draining]; nofun)
  next leader draining =>
    split at moved
    next =>
      cases moved
      exact sound.phase nofun nofun (by rw [draining]; exact fun _ => rfl)
    next => cases moved
  next id sweeping =>
    obtain ⟨after, collected, rfl⟩ := Option.map_eq_some_iff.mp moved
    exact sound_collectChild sound collected (by rw [sweeping]; nofun)
  next sweeping =>
    split at moved
    next =>
      cases moved
      exact sound.phase nofun nofun (by rw [sweeping]; exact fun _ => rfl)
    next => cases moved
  next => cases moved

theorem sound_step {move : Move}
    (stepped : step supervisor others state move = some next) : Sound supervisor next := by
  unfold step at stepped
  split at stepped
  next moved =>
    cases stepped
    exact sound_surroundings sound moved
  next => exact sound_supervised sound stepped

end

theorem sound_of_steps {processes : Processes} {schedule : List Move}
    (run : Steps (step supervisor others) (booted processes) schedule state) : Sound supervisor state :=
  run.invariant (Sound supervisor) (fun _ _ _ sound stepped => sound_step sound stepped) (sound_booted processes)

/-! ## Whom the signals reach -/

/-- Everybody in the group of a worker that was not waited for descends from it. -/
def Held (state : Supervision) : Prop :=
  ∀ leader ∈ state.phase.unreaped, HeldBy (some state.round) leader state.processes

theorem held_of_unreaped (reaped : state.phase.unreaped = none) : Held state := by
  simp [Held, reaped]

/-- Where nobody joins strangers, the group of a worker that is there stays its own. -/
theorem held_evolves (sound : Sound supervisor state) (held : Held state) {adopter : Option Nat → Nat}
    {after : Processes} (evolves : Evolves adopter state.processes.JoinsRelatives state.processes after) :
    Held { state with processes := after } := by
  intro leader isLeader
  refine (held leader isLeader).evolves evolves fun process found => ?_
  obtain ⟨worker, isWorker, -, isFamily⟩ := sound.leads leader isLeader
  rw [found] at isWorker
  cases isWorker
  exact isFamily

theorem held_supervised (sound : Sound supervisor state) (held : Held state) {move : Move}
    (moved : supervised supervisor state move = some next) : Held next := by
  unfold supervised at moved
  split at moved
  next leader idle =>
    obtain ⟨after, spawned, rfl⟩ := Option.map_eq_some_iff.mp moved
    rintro _ ⟨⟩ id process found isMember
    unfold Processes.spawn at spawned
    split at spawned
    next free =>
      cases spawned
      rw [Dict.get?_set] at found
      split at found
      next =>
        cases found
        rfl
      next => exact absurd isMember (free.2 (id, process) (Dict.mem_rows_iff.mpr found))
    next => cases spawned
  next id idle =>
    obtain ⟨after, -, rfl⟩ := Option.map_eq_some_iff.mp moved
    exact held_of_unreaped (by rw [idle]; rfl)
  next leader id serving =>
    split at moved
    next => cases moved
    next =>
      obtain ⟨after, collected, rfl⟩ := Option.map_eq_some_iff.mp moved
      have collects := collect_of_collectChild collected
      exact @held_evolves _ _ sound held (adopter supervisor 0) _ (evolves_collect collects)
  next leader serving =>
    cases moved
    rw [Held, serving] at held
    exact held
  next leader terminating =>
    cases moved
    have killed := @held_evolves _ _ sound held (adopter supervisor 0) _ (evolves_killGroup leader)
    rw [Held, terminating] at killed
    exact killed
  next leader killed =>
    obtain ⟨after, -, rfl⟩ := Option.map_eq_some_iff.mp moved
    exact held_of_unreaped rfl
  next leader id draining =>
    obtain ⟨after, -, rfl⟩ := Option.map_eq_some_iff.mp moved
    exact held_of_unreaped (by rw [draining]; rfl)
  next leader draining =>
    obtain ⟨-, ended⟩ := Option.ite_none_right_eq_some.mp moved
    cases ended
    exact held_of_unreaped rfl
  next id sweeping =>
    obtain ⟨after, -, rfl⟩ := Option.map_eq_some_iff.mp moved
    exact held_of_unreaped (by rw [sweeping]; rfl)
  next sweeping =>
    obtain ⟨-, ended⟩ := Option.ite_none_right_eq_some.mp moved
    cases ended
    exact held_of_unreaped rfl
  next => cases moved

theorem held_step (sound : Sound supervisor state) (held : Held state) {move : Move}
    (joins : JoinsRelatives state move) (stepped : step supervisor others state move = some next) : Held next := by
  unfold step at stepped
  split at stepped
  next moved =>
    cases stepped
    refine held_evolves sound held (evolves_surroundings moved ?_)
    rintro id group rfl was found
    exact joins (id, was) (Dict.mem_rows_iff.mpr found) rfl
  next => exact held_supervised sound held stepped

/-- As long as the supervisor may still send the worker's group a signal, or has to wait for the worker, the worker is
its child and was not collected. Where no process joined the group of a stranger, everybody in the group of that id
descends from this worker. -/
theorem signals_reach_the_worker {processes : Processes} {schedule : List Move}
    (run : Steps (step supervisor others) (booted processes) schedule state) {leader : Nat}
    (isLeader : leader ∈ state.phase.unreaped) : IsChild supervisor (some state.round) leader state.processes ∧
      (Careful (step supervisor others) JoinsRelatives (booted processes) schedule →
        HeldBy (some state.round) leader state.processes) := by
  refine ⟨(sound_of_steps run).leads leader isLeader, fun careful => ?_⟩
  have kept : Sound supervisor state ∧ Held state := by
    refine run.invariant_of_careful (fun state => Sound supervisor state ∧ Held state) ?_ careful
      ⟨sound_booted processes, nofun⟩
    rintro state label next joins ⟨sound, held⟩ stepped
    exact ⟨sound_step sound stepped, held_step sound held joins stepped⟩
  exact kept.2 leader isLeader

/-- A daemon that the worker leaves behind, before the signals, and that came back to its group. -/
theorem signals_reach_a_daemon : ∃ state : Supervision, IsChild 1 (some state.round) 10 state.processes ∧
      HeldBy (some state.round) 10 state.processes := by
  obtain ⟨state, run, isLeader⟩ : ∃ state, Steps (step 1 2) (booted .empty)
      [.spawn 10, .fork 10 11, .move 11 11, .fork 11 12, .move 12 10, .exit 11, .exit 10, .terminate] state ∧
        state.phase.unreaped = some 10 :=
    Steps.exists_of_any (fun state : Supervision => state.phase.unreaped = some 10) (by decide +kernel)
  have reach := signals_reach_the_worker run isLeader
  exact ⟨state, reach.1, reach.2 (by decide +kernel)⟩

/-! ## One worker -/

/-- Of two processes of workers that neither were killed nor left their group, both are of one worker. -/
theorem one_worker_at_a_time {processes : Processes} {schedule : List Move}
    (run : Steps (step supervisor others) (booted processes) schedule state) {left right : Nat}
    {one another : Process} {first second : Nat} (isOne : state.processes.get? left = some one)
    (isAnother : state.processes.get? right = some another) (firstFamily : one.family = some first)
    (secondFamily : another.family = some second) (loyal : one.loyal = true ∧ another.loyal = true)
    (spared : one.doomed = false ∧ another.doomed = false) : first = second := by
  have sound := sound_of_steps run
  have current : ∀ id process round, state.processes.get? id = some process → process.family = some round →
      process.loyal = true → process.doomed = false → round = state.round := by
    intro id process round found isFamily isLoyal isSpared
    refine Nat.le_antisymm (sound.rounds id process round found isFamily) (Nat.le_of_not_lt fun earlier => ?_)
    have isDoomed := sound.doomed id process round found isLoyal isFamily (.inl earlier)
    rw [isSpared] at isDoomed
    cases isDoomed
  exact (current left one first isOne firstFamily loyal.1 spared.1).trans
    (current right another second isAnother secondFamily loyal.2 spared.2).symm

/-- The second worker of a supervisor, and its child. -/
theorem one_worker_second : ∃ state : Supervision, ∃ one another first second, state.processes.get? 12 = some one ∧
      state.processes.get? 13 = some another ∧ one.family = some first ∧ another.family = some second ∧
        first = second := by
  obtain ⟨state, run, isWorker, isChild⟩ : ∃ state, Steps (step 1 2) (booted .empty)
      [.spawn 10, .fork 10 11, .terminate, .kill, .exit 10, .wait, .exit 11, .drain 11, .drained, .swept, .spawn 12,
        .fork 12 13] state ∧ state.processes.get? 12 = some ⟨1, 12, false, false, some 2, 0, true⟩ ∧
          state.processes.get? 13 = some ⟨12, 12, false, false, some 2, 1, true⟩ :=
    Steps.exists_of_any (fun state : Supervision =>
      state.processes.get? 12 = some ⟨1, 12, false, false, some 2, 0, true⟩ ∧
        state.processes.get? 13 = some ⟨12, 12, false, false, some 2, 1, true⟩) (by decide +kernel)
  exact ⟨state, _, _, 2, 2, isWorker, isChild, rfl, rfl,
    one_worker_at_a_time run isWorker isChild rfl rfl ⟨rfl, rfl⟩ ⟨rfl, rfl⟩⟩

/-! ## Who is left -/

/-- A child of the supervisor that once left the worker's group. -/
structure Stray (supervisor round : Nat) (process : Process) : Prop where
  parent : process.parent = supervisor
  family : process.family = some round
  left : process.loyal = false

/-- The supervisor finds nobody left in the group that it could wait for. -/
theorem drained_eq_some (drained : step supervisor others state .drained = some next) :
    ∃ leader, state.phase = .draining leader ∧
      (∀ row ∈ state.processes.rows, row.2.parent = supervisor → row.2.group ≠ leader) ∧
      next = { state with phase := .sweeping } := by
  obtain ⟨processes, phase, round⟩ := state
  cases phase with
  | draining leader =>
    obtain ⟨nobody, isNext⟩ := Option.ite_none_right_eq_some.mp drained
    exact ⟨leader, rfl, nobody, (Option.some.inj isNext).symm⟩
  | idle | serving | terminating | killed | sweeping => cases drained

/-- What then remains of the worker are processes that left the group and what is below them; a process that did not
leave it was killed. -/
theorem drained_leaves_strays {processes : Processes} {schedule : List Move}
    (run : Steps (step supervisor others) (booted processes) schedule state)
    (drained : step supervisor others state .drained = some next) {id : Nat} {process : Process}
    (found : next.processes.get? id = some process) (ofWorker : process.family = some next.round) :
    Under next.processes (Stray supervisor next.round) id ∧ (process.loyal = true → process.doomed = true) := by
  have sound := sound_of_steps run
  obtain ⟨leader, draining, nobody, rfl⟩ := drained_eq_some drained
  refine ⟨(sound.rooted.under found ofWorker).mono ?_, fun isLoyal => ?_⟩
  · rintro other top isTop ⟨atRoot, isFamily⟩
    refine ⟨atRoot, isFamily, Bool.eq_false_iff.mpr fun isLoyal => ?_⟩
    have isMember := sound.loyal leader (by rw [draining]; rfl) other top isTop isLoyal isFamily
    exact nobody (other, top) (Dict.mem_rows_iff.mpr isTop) atRoot isMember
  · exact sound.doomed id process _ found isLoyal ofWorker (.inr (by rw [draining]; rfl))

/-- A process that left the group, and its child, are all that remains. -/
theorem drained_leaves_a_stray :
    ∃ next : Supervision, next.processes.get? 12 = some ⟨11, 11, false, false, some 1, 2, false⟩ ∧
      Under next.processes (Stray 1 next.round) 12 := by
  obtain ⟨next, run, found, isRound⟩ : ∃ next, Steps (step 1 2) (booted .empty)
      ([.spawn 10, .fork 10 11, .move 11 11, .fork 11 12, .fork 10 13, .terminate, .kill, .exit 10, .wait, .exit 13,
        .drain 13] ++ [.drained]) next ∧
          next.processes.get? 12 = some ⟨11, 11, false, false, some 1, 2, false⟩ ∧ next.round = 1 :=
    Steps.exists_of_any (fun next : Supervision =>
      next.processes.get? 12 = some ⟨11, 11, false, false, some 1, 2, false⟩ ∧ next.round = 1) (by decide +kernel)
  obtain ⟨state, run, drained⟩ := run.concat_cases
  exact ⟨next, found, (drained_leaves_strays run drained found (by rw [isRound])).1⟩

end Supervisor

end Supervision

end TutaBridge.Service
