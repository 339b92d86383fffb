import TutaBridge.Std.Table

/-!
# Processes and their groups

A process has an id, a parent that is to collect it once it has ended, and a group. A child begins in the group of
its parent; a process may move to a group of its own, which has the id of the process, or to any that there is. A
process whose group was killed is doomed: it starts no more children, and ends before it does anything of its own.
An id is given again once no process and no group has it. Three more fields are no part of a real process and tell
where it comes from: its family, how far it is from the founder of the family, and whether neither it nor a process
it was born of had ever moved to another group.
-/

namespace TutaBridge.Std

variable (adopter : Option Nat → Nat)

structure Process where
  parent : Nat
  group : Nat
  ended : Bool
  doomed : Bool
  family : Option Nat
  depth : Nat
  loyal : Bool
deriving DecidableEq, Repr

abbrev Processes := Dict Nat Process

namespace Processes

/-- No process has the id, and no group. -/
def IsFree (id : Nat) (processes : Processes) : Prop :=
  processes.get? id = none ∧ ∀ row ∈ processes.rows, row.2.group ≠ id

instance (id : Nat) (processes : Processes) : Decidable (processes.IsFree id) :=
  inferInstanceAs (Decidable (_ ∧ _))

/-- A process starts a family: a child in a group of its own. -/
def spawn (parent id family : Nat) (processes : Processes) : Option Processes :=
  if processes.IsFree id then some (processes.set id ⟨parent, id, false, false, some family, 0, true⟩) else none

/-- A process that runs starts a child. -/
def fork (parent child : Nat) (processes : Processes) : Option Processes :=
  (processes.get? parent).bind fun process =>
    if process.ended = false ∧ process.doomed = false ∧ processes.IsFree child then
      some (processes.set child { process with parent := parent, depth := process.depth + 1 })
    else none

/-- A process that runs moves to another group. -/
def move (id group : Nat) (processes : Processes) : Option Processes :=
  (processes.get? id).bind fun process =>
    if process.ended = false ∧ (group = id ∨ ∃ row ∈ processes.rows, row.2.group = group) then
      some (processes.set id { process with group := group, loyal := false })
    else none

/-- The children of a process that ended are given to whoever adopts their family. -/
def adopted (id : Nat) (process : Process) : Process :=
  { process with parent := if process.parent = id then adopter process.family else process.parent }

/-- A process ends, and is to be collected. -/
def exit (id : Nat) (processes : Processes) : Option Processes :=
  (processes.get? id).bind fun process =>
    if process.ended = false then
      some ((processes.mapValues (adopted adopter id)).set id { adopted adopter id process with ended := true })
    else none

/-- Every process of a group is killed. -/
def killGroup (group : Nat) (processes : Processes) : Processes :=
  processes.mapValues fun process => { process with doomed := process.doomed || process.group = group }

/-- A process that ended is collected. -/
def collect (id : Nat) (processes : Processes) : Option Processes :=
  (processes.get? id).bind fun process => if process.ended then some (processes.erase id) else none

/-! ## What an operation does -/

section Operations

variable {before after : Processes} {adopter : Option Nat → Nat} {id : Nat}

theorem fork_eq_some {parent child : Nat} (forked : fork parent child before = some after) :
    ∃ process, before.get? parent = some process ∧ process.ended = false ∧ process.doomed = false ∧
      before.get? child = none ∧ ∀ id, after.get? id =
        if id = child then some { process with parent := parent, depth := process.depth + 1 } else before.get? id := by
  obtain ⟨process, found, forked⟩ := Option.bind_eq_some_iff.mp forked
  split at forked
  next allowed =>
    cases forked
    exact ⟨process, found, allowed.1, allowed.2.1, allowed.2.2.1, fun id => Dict.get?_set ..⟩
  next => cases forked

theorem get?_move {group : Nat} (moved : move id group before = some after) (other : Nat) :
    after.get? other = (before.get? other).map fun was =>
      if other = id then { was with group := group, loyal := false } else was := by
  obtain ⟨process, found, moved⟩ := Option.bind_eq_some_iff.mp moved
  split at moved
  next =>
    cases moved
    rw [Dict.get?_set]
    split
    next same => rw [same, found, Option.map_some]
    next => rw [Option.map_id']
  next => cases moved

theorem get?_exit (exited : exit adopter id before = some after) (other : Nat) :
    after.get? other = (before.get? other).map fun was =>
      { adopted adopter id was with ended := was.ended || other = id } := by
  obtain ⟨process, found, exited⟩ := Option.bind_eq_some_iff.mp exited
  split at exited
  next =>
    cases exited
    rw [Dict.get?_set, Dict.get?_mapValues]
    split
    next same => simp [same, found]
    next different =>
      simp only [different, decide_false, Bool.or_false]
      rfl
  next => cases exited

theorem collect_eq_some (collected : collect id before = some after) :
    (∀ was, before.get? id = some was → was.ended = true) ∧
      ∀ other, after.get? other = if other = id then none else before.get? other := by
  obtain ⟨process, found, collected⟩ := Option.bind_eq_some_iff.mp collected
  split at collected
  next ended =>
    cases collected
    refine ⟨fun was isWas => ?_, fun other => Dict.get?_erase ..⟩
    cases found.symm.trans isWas
    exact ended
  next => cases collected

end Operations

/-! ## Where a process comes from -/

/-- A process that runs still runs a step later, in the family it has. -/
def Survives (before after : Processes) (id : Nat) : Prop :=
  ∀ was, before.get? id = some was → was.ended = false →
    ∃ now, after.get? id = some now ∧ now.ended = false ∧ now.family = was.family ∧ now.depth = was.depth

/-- What a process keeps from one step to the next. Its parent goes on, or it was adopted. -/
structure GoesOn (adopter : Option Nat → Nat) (before after : Processes) (was now : Process) : Prop where
  family : now.family = was.family
  depth : now.depth = was.depth
  doomed : was.doomed = true → now.doomed = true
  parent : now.parent = was.parent ∧ Survives before after was.parent ∨ now.parent = adopter was.family

/-- What a process was a step before: the same in the same group, or in the group it moved from, where it may join
the one it is in; or it is the child of one that runs. -/
inductive Origin (adopter : Option Nat → Nat) (Joins : Nat → Process → Nat → Prop) (before after : Processes)
    (id : Nat) (now : Process) : Prop where
  | kept (was : Process) (found : before.get? id = some was) (goesOn : GoesOn adopter before after was now)
      (group : now.group = was.group) (loyal : now.loyal = was.loyal)
  | moved (was : Process) (found : before.get? id = some was) (goesOn : GoesOn adopter before after was now)
      (joins : Joins id was now.group) (loyal : now.loyal = false)
  | born (parent : Nat) (of : Process) (found : before.get? parent = some of) (running : of.ended = false)
      (spared : of.doomed = false) (survives : Survives before after parent)
      (child : now = { of with parent := parent, depth := of.depth + 1 })

/-- Every process comes from one that was there before. -/
def Evolves (Joins : Nat → Process → Nat → Prop) (before after : Processes) : Prop :=
  ∀ id now, after.get? id = some now → Origin adopter Joins before after id now

section Evolving

variable {before after : Processes} {adopter : Option Nat → Nat} {Joins : Nat → Process → Nat → Prop} {id : Nat}

theorem survives_of_map {change : Process → Process} (maps : after.get? id = (before.get? id).map change)
    (keeps : ∀ was, (change was).ended = was.ended ∧ (change was).family = was.family ∧
      (change was).depth = was.depth) : Survives before after id := by
  intro was isWas running
  obtain ⟨ended, family, depth⟩ := keeps was
  exact ⟨change was, by rw [maps, isWas, Option.map_some], ended.trans running, family, depth⟩

theorem survives_of_eq (same : after.get? id = before.get? id) : Survives before after id :=
  fun was isWas running => ⟨was, same.trans isWas, running, rfl, rfl⟩

/-- A process that a step does not touch. -/
theorem origin_of_eq {now : Process} (same : before.get? id = some now)
    (survives : Survives before after now.parent) :
    Origin adopter Joins before after id now :=
  .kept now same ⟨rfl, rfl, fun doomed => doomed, .inl ⟨rfl, survives⟩⟩ rfl rfl

theorem evolves_fork {parent child : Nat} (forked : fork parent child before = some after) :
    Evolves adopter Joins before after := by
  obtain ⟨process, found, running, spared, free, gets⟩ := fork_eq_some forked
  have survives : ∀ id, Survives before after id := by
    intro id was isWas
    have other : id ≠ child := by
      rintro rfl
      rw [free] at isWas
      cases isWas
    exact survives_of_eq (by rw [gets, if_neg other]) was isWas
  intro id now isNow
  rw [gets] at isNow
  split at isNow
  next =>
    cases isNow
    exact .born parent process found running spared (survives parent) rfl
  next => exact origin_of_eq isNow (survives now.parent)

theorem evolves_move {group : Nat} (moved : move id group before = some after)
    (joins : ∀ was, before.get? id = some was → Joins id was group) : Evolves adopter Joins before after := by
  have maps := get?_move moved
  have survives : ∀ other, Survives before after other := by
    refine fun other => survives_of_map (maps other) fun was => ?_
    split <;> exact ⟨rfl, rfl, rfl⟩
  intro other now isNow
  rw [maps] at isNow
  obtain ⟨was, isWas, rfl⟩ := Option.map_eq_some_iff.mp isNow
  split
  next same =>
    subst same
    exact .moved was isWas ⟨rfl, rfl, fun doomed => doomed, .inl ⟨rfl, survives was.parent⟩⟩ (joins was isWas) rfl
  next => exact origin_of_eq isWas (survives was.parent)

theorem evolves_exit (exited : exit adopter id before = some after) : Evolves adopter Joins before after := by
  have maps := get?_exit exited
  intro other now isNow
  rw [maps] at isNow
  obtain ⟨was, isWas, rfl⟩ := Option.map_eq_some_iff.mp isNow
  refine .kept was isWas ⟨rfl, rfl, fun doomed => doomed, ?_⟩ rfl rfl
  by_cases orphaned : was.parent = id
  · exact .inr (if_pos orphaned)
  · refine .inl ⟨if_neg orphaned, survives_of_map (maps was.parent) fun above => ⟨?_, rfl, rfl⟩⟩
    simp [orphaned]

theorem get?_killGroup (group : Nat) (processes : Processes) (id : Nat) :
    (killGroup group processes).get? id = (processes.get? id).map fun process =>
      { process with doomed := process.doomed || process.group = group } := Dict.get?_mapValues ..

theorem evolves_killGroup (group : Nat) : Evolves adopter Joins before (killGroup group before) := by
  intro id now isNow
  rw [get?_killGroup] at isNow
  obtain ⟨was, isWas, rfl⟩ := Option.map_eq_some_iff.mp isNow
  have survives := @survives_of_map before _ was.parent _ (get?_killGroup group before was.parent)
    fun _ => ⟨rfl, rfl, rfl⟩
  exact .kept was isWas ⟨rfl, rfl, fun doomed => by simp [doomed], .inl ⟨rfl, survives⟩⟩ rfl rfl

theorem evolves_collect (collected : collect id before = some after) : Evolves adopter Joins before after := by
  obtain ⟨ended, gets⟩ := collect_eq_some collected
  have survives : ∀ other, Survives before after other := by
    intro other was isWas running
    have different : other ≠ id := by
      rintro rfl
      rw [ended was isWas] at running
      cases running
    exact survives_of_eq (by rw [gets, if_neg different]) was isWas running
  intro other now isNow
  rw [gets] at isNow
  split at isNow
  next => cases isNow
  next => exact origin_of_eq isNow (survives now.parent)

/-- Everybody of a group is doomed once the group is killed. -/
theorem doomed_of_killGroup {group : Nat} {process : Process}
    (found : (killGroup group before).get? id = some process) (isMember : process.group = group) :
    process.doomed = true := by
  rw [get?_killGroup] at found
  obtain ⟨was, -, rfl⟩ := Option.map_eq_some_iff.mp found
  have wasMember : was.group = group := isMember
  simp [wasMember]

/-! ## The members of a group -/

/-- A relative of the process is in the group. -/
def HasRelative (process : Process) (group : Nat) (processes : Processes) : Prop :=
  ∃ row ∈ processes.rows, row.2.family = process.family ∧ row.2.group = group

instance (process : Process) (group : Nat) (processes : Processes) :
    Decidable (processes.HasRelative process group) :=
  inferInstanceAs (Decidable (∃ row ∈ processes.rows, _ ∧ _))

/-- The group is the process's own, or that of a relative. -/
def JoinsRelatives (processes : Processes) (id : Nat) (process : Process) (group : Nat) : Prop :=
  group = id ∨ processes.HasRelative process group

instance (processes : Processes) (id : Nat) (process : Process) (group : Nat) :
    Decidable (processes.JoinsRelatives id process group) :=
  inferInstanceAs (Decidable (_ ∨ _))

/-- Everybody of the group is of the family. -/
def HeldBy (family : Option Nat) (group : Nat) (processes : Processes) : Prop :=
  ∀ id process, processes.get? id = some process → process.group = group → process.family = family

variable {family : Option Nat} {group : Nat}

theorem HeldBy.of_hasRelative (held : HeldBy family group before) {process : Process}
    (relative : before.HasRelative process group) : process.family = family := by
  obtain ⟨⟨id, mem⟩, isRow, isRelative, isMember⟩ := relative
  rw [← isRelative]
  exact held id mem (Dict.mem_rows_iff.mp isRow) isMember

/-- A group stays its family's while the process whose id it has is there, and nobody joins strangers. -/
theorem HeldBy.evolves (held : HeldBy family group before)
    (evolves : Evolves adopter before.JoinsRelatives before after)
    (reserved : ∀ process, before.get? group = some process → process.family = family) :
    HeldBy family group after := by
  intro id now isNow isMember
  cases evolves id now isNow with
  | kept was found goesOn sameGroup => exact goesOn.family.trans (held id was found (sameGroup ▸ isMember))
  | moved was found goesOn joins =>
    rw [goesOn.family]
    rcases joins with own | relative
    · rw [isMember] at own
      subst own
      exact reserved was found
    · exact held.of_hasRelative (isMember ▸ relative)
  | born parent of found running spared survives child =>
    subst child
    exact held parent of found isMember

/-! ## The line of a process -/

/-- A process of a family is the child of the root, or of one of the family that runs. -/
def Rooted (root : Nat) (processes : Processes) : Prop :=
  ∀ id process round, processes.get? id = some process → process.family = some round →
    process.parent = root ∨ ∃ above, processes.get? process.parent = some above ∧ above.ended = false ∧
      above.family = some round ∧ above.depth < process.depth

variable {root : Nat}

theorem Rooted.evolves (rooted : Rooted root before) (adopts : ∀ round, adopter (some round) = root)
    (evolves : Evolves adopter Joins before after) : Rooted root after := by
  have goes : ∀ id was now round, before.get? id = some was → GoesOn adopter before after was now →
      now.family = some round → now.parent = root ∨ ∃ above, after.get? now.parent = some above ∧
        above.ended = false ∧ above.family = some round ∧ above.depth < now.depth := by
    intro id was now round isWas goesOn isFamily
    have wasFamily := goesOn.family.symm.trans isFamily
    rcases goesOn.parent with ⟨sameParent, survives⟩ | isAdopted
    · rcases rooted id was round isWas wasFamily with atRoot | ⟨above, isAbove, running, aboveFamily, deeper⟩
      · exact .inl (sameParent.trans atRoot)
      · obtain ⟨later, isLater, runs, laterFamily, laterDepth⟩ := survives above isAbove running
        refine .inr ⟨later, sameParent ▸ isLater, runs, laterFamily.trans aboveFamily, ?_⟩
        rw [laterDepth, goesOn.depth]
        exact deeper
    · exact .inl (by rw [isAdopted, wasFamily, adopts])
  intro id now round isNow isFamily
  cases evolves id now isNow with
  | kept was found goesOn => exact goes id was now round found goesOn isFamily
  | moved was found goesOn => exact goes id was now round found goesOn isFamily
  | born parent of found running spared survives child =>
    subst child
    obtain ⟨later, isLater, runs, laterFamily, laterDepth⟩ := survives of found running
    refine .inr ⟨later, isLater, runs, laterFamily.trans isFamily, ?_⟩
    rw [laterDepth]
    exact Nat.lt_succ_self _

theorem Rooted.spawn (rooted : Rooted root before) {id founded : Nat}
    (spawned : Processes.spawn root id founded before = some after) : Rooted root after := by
  unfold Processes.spawn at spawned
  split at spawned
  next free =>
    cases spawned
    intro other process round found isFamily
    rw [Dict.get?_set] at found
    split at found
    next =>
      cases found
      exact .inl rfl
    next =>
      refine (rooted other process round found isFamily).imp_right ?_
      rintro ⟨above, isAbove, facts⟩
      have different : process.parent ≠ id := by
        intro same
        rw [same, free.1] at isAbove
        cases isAbove
      exact ⟨above, by rw [Dict.get?_set, if_neg different, isAbove], facts⟩
  next => cases spawned

/-- From the process up through its parents one comes to a process as told. -/
inductive Under (processes : Processes) (Top : Process → Prop) : Nat → Prop where
  | top {id : Nat} {process : Process} (found : processes.get? id = some process) (holds : Top process) :
      Under processes Top id
  | child {id : Nat} {process : Process} (found : processes.get? id = some process)
      (above : Under processes Top process.parent) : Under processes Top id

/-- Every process of a family is under a child of the root that is of the family. -/
theorem Rooted.under {processes : Processes} (rooted : Rooted root processes) {id round : Nat} {process : Process}
    (found : processes.get? id = some process) (isFamily : process.family = some round) :
    Under processes (fun top => top.parent = root ∧ top.family = some round) id := by
  induction isDepth : process.depth using Nat.strongRecOn generalizing id process with
  | _ depth ih =>
    rcases rooted id process round found isFamily with atRoot | ⟨above, isAbove, -, aboveFamily, deeper⟩
    · exact .top found ⟨atRoot, isFamily⟩
    · exact .child found (ih above.depth (isDepth ▸ deeper) isAbove aboveFamily rfl)

theorem Under.mono {processes : Processes} {Top More : Process → Prop} {id : Nat}
    (weaker : ∀ other process, processes.get? other = some process → Top process → More process)
    (under : Under processes Top id) : Under processes More id := by
  induction under with
  | top found holds => exact .top found (weaker _ _ found holds)
  | child found _ ih => exact .child found ih

/-! ## A child that was not collected -/

/-- The process is a child of the parent and of the family, whatever group it is in. -/
def IsChild (parent : Nat) (family : Option Nat) (id : Nat) (processes : Processes) : Prop :=
  ∃ process, processes.get? id = some process ∧ process.parent = parent ∧ process.family = family

variable {parent child : Nat}

section

variable (isChild : IsChild parent family child before)

include isChild

theorem IsChild.of_map {change : Process → Process} (maps : after.get? child = (before.get? child).map change)
    (keeps : ∀ was, was.parent = parent → (change was).parent = parent ∧ (change was).family = was.family) :
    IsChild parent family child after := by
  obtain ⟨process, found, isParent, isFamily⟩ := isChild
  obtain ⟨sameParent, sameFamily⟩ := keeps process isParent
  exact ⟨change process, by rw [maps, found, Option.map_some], sameParent, sameFamily.trans isFamily⟩

theorem IsChild.fork {forking born : Nat}
    (forked : Processes.fork forking born before = some after) : IsChild parent family child after := by
  obtain ⟨process, found, facts⟩ := isChild
  obtain ⟨_, -, -, -, free, gets⟩ := fork_eq_some forked
  have different : child ≠ born := by
    rintro rfl
    rw [free] at found
    cases found
  exact ⟨process, by rw [gets, if_neg different, found], facts⟩

theorem IsChild.move {destination : Nat}
    (moved : Processes.move id destination before = some after) : IsChild parent family child after := by
  refine isChild.of_map (get?_move moved child) fun was isParent => ?_
  split <;> exact ⟨isParent, rfl⟩

/-- A child stays its parent's as long as the parent does not end. -/
theorem IsChild.exit (stays : id ≠ parent)
    (exited : Processes.exit adopter id before = some after) : IsChild parent family child after := by
  refine isChild.of_map (get?_exit exited child) fun was isParent => ⟨?_, rfl⟩
  simp [adopted, isParent, stays.symm]

theorem IsChild.killGroup (group : Nat) : IsChild parent family child (Processes.killGroup group before) :=
  isChild.of_map (get?_killGroup group before child) fun _ isParent => ⟨isParent, rfl⟩

theorem IsChild.collect (other : id ≠ child)
    (collected : Processes.collect id before = some after) : IsChild parent family child after := by
  obtain ⟨process, found, facts⟩ := isChild
  exact ⟨process, by rw [(collect_eq_some collected).2, if_neg other.symm, found], facts⟩

end

end Evolving

end Processes

end TutaBridge.Std
