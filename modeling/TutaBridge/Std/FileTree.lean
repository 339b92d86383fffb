import TutaBridge.Std.Acting
import TutaBridge.Std.Table

/-!
# File trees

A tree of files is told by the paths that something is at. Every operation on it may fail, for the
system's reasons or because of what is there; one that fails has changed nothing, or has done a part
of its work when it is made of several steps. What an operation leaves alone is stated once, for the
operation as it succeeds and as it fails.
-/

namespace TutaBridge.Std

inductive Item where
  | file (bytes : List UInt8)
  | directory
  | other
deriving DecidableEq, Repr

/-- A path is the names on it, from the top. -/
abbrev Files (ν : Type) : Type := Dict (List ν) Item

namespace FileTree

variable {ν : Type} [DecidableEq ν]

/-- The top is always there. -/
def isDirectory (files : Files ν) (path : List ν) : Bool := path = [] ∨ files.get? path = some .directory

def isFile (files : Files ν) (path : List ν) : Bool :=
  match files.get? path with
  | some (.file _) => true
  | _ => false

/-- The names in a directory. -/
def children (files : Files ν) (parent : List ν) : List ν :=
  files.keys.filterMap fun path => if path.dropLast = parent then path.getLast? else none

/-! ## Operations -/

inductive ErrorKind where
  | alreadyExists
  | other
deriving DecidableEq, Repr

structure FileError where
  kind : ErrorKind
  message : String
deriving DecidableEq, Repr

inductive Operation (ν : Type) where
  | isDirectory (path : List ν)
  | isFile (path : List ν)
  | exists (path : List ν)
  | metadata (path : List ν)
  | createDirectory (path : List ν)
  | open (path : List ν)
  | sync (path : List ν)
  | list (path : List ν)
  | nextEntry (path : List ν)
  | fileType (path : List ν)
  | removeFile (path : List ν)
  | removeTree (path : List ν)
  | copy (source dest : List ν)
  | rename (source dest : List ν)
deriving DecidableEq, Repr

structure Disk (ν : Type) where
  files : Files ν
  clock : Nat

/-- What the system does, at the time of each operation: which fail, what the removal of a tree that
fails leaves of it, what a copy that fails has written, and in which order names are listed. -/
structure System (ν : Type) where
  fails : Nat → Operation ν → Bool
  reason : Nat → Operation ν → String
  leaves : Nat → List ν → Bool
  written : Nat → Option (List UInt8)
  order : Nat → List ν → List ν
  order_perm : ∀ time names, (order time names).Perm names
  random : Nat → BitVec 64

variable (system : System ν)

/-- An operation: what it does when it is not refused, and what it leaves when it fails. -/
def act {α : Type} (operation : Operation ν) (done : Files ν → Except ErrorKind (α × Files ν))
    (undone : Nat → Files ν → Files ν) : Acting (Disk ν) FileError α := fun disk =>
  if system.fails disk.clock operation then
    (.error ⟨.other, system.reason disk.clock operation⟩, ⟨undone disk.clock disk.files, disk.clock + 1⟩)
  else
    match done disk.files with
    | .ok (value, files) => (.ok value, ⟨files, disk.clock + 1⟩)
    | .error kind => (.error ⟨kind, system.reason disk.clock operation⟩, ⟨disk.files, disk.clock + 1⟩)

/-- What fails without a trace. -/
def untouched (_ : Nat) (files : Files ν) : Files ν := files

/-- A question, which a failure answers with no. -/
def test {ε : Type} (operation : Operation ν) (check : Files ν → Bool) : Acting (Disk ν) ε Bool := fun disk =>
  (.ok (!system.fails disk.clock operation && check disk.files), ⟨disk.files, disk.clock + 1⟩)

/-- A question, which may fail. -/
def inspect {α : Type} (operation : Operation ν) (read : Files ν → Except ErrorKind α) :
    Acting (Disk ν) FileError α :=
  act system operation (fun files => (read files).map fun value => (value, files)) untouched

def createDirectory (path : List ν) : Acting (Disk ν) FileError Unit :=
  act system (.createDirectory path) (fun files =>
    if path = [] ∨ (files.get? path).isSome then .error .alreadyExists
    else if isDirectory files path.dropLast then .ok ((), files.set path .directory)
    else .error .other) untouched

/-- Open a path and sync what is there. -/
def openAndSync (path : List ν) : Acting (Disk ν) FileError Unit := do
  inspect system (.open path) fun files =>
    if path = [] ∨ (files.get? path).isSome then .ok () else .error .other
  inspect system (.sync path) fun _ => .ok ()

/-- The names in a directory. -/
def list (path : List ν) : Acting (Disk ν) FileError (List ν) := fun disk =>
  inspect system (.list path) (fun files =>
    if isDirectory files path then .ok (system.order disk.clock (children files path)) else .error .other) disk

def removeFile (path : List ν) : Acting (Disk ν) FileError Unit :=
  act system (.removeFile path) (fun files =>
    if isFile files path then .ok ((), files.erase path) else .error .other) untouched

/-- What is left of a tree that was removed in part is what is left with all that is above it. -/
def removeTree (path : List ν) : Acting (Disk ν) FileError Unit :=
  act system (.removeTree path) (fun files =>
    if isDirectory files path then .ok ((), files.delete fun row => path.isPrefixOf row.1) else .error .other)
    fun time files => files.delete fun row =>
      path.isPrefixOf row.1 && row.1.inits.any fun above => path.isPrefixOf above && !system.leaves time above

/-- A file can be written to a path. -/
def isWritable (files : Files ν) (path : List ν) : Bool :=
  isDirectory files path.dropLast ∧ path ≠ [] ∧ files.get? path ≠ some .directory

def copy (source dest : List ν) : Acting (Disk ν) FileError Unit :=
  act system (.copy source dest) (fun files =>
    match files.get? source with
    | some (.file bytes) => if isWritable files dest then .ok ((), files.set dest (.file bytes)) else .error .other
    | _ => .error .other)
    fun time files =>
      match system.written time with
      | some bytes => if isFile files source ∧ isWritable files dest then files.set dest (.file bytes) else files
      | none => files

/-- Put a file in the place of another. -/
def rename (source dest : List ν) : Acting (Disk ν) FileError Unit :=
  act system (.rename source dest) (fun files =>
    match files.get? source with
    | some (.file bytes) =>
      if isWritable files dest then .ok ((), (files.erase source).set dest (.file bytes)) else .error .other
    | _ => .error .other) untouched

/-! ## What is returned -/

section Returns

variable {system} {disk after : Disk ν} {α : Type} {operation : Operation ν}

omit [DecidableEq ν] in
theorem act_eq_ok_iff {done : Files ν → Except ErrorKind (α × Files ν)} {undone : Nat → Files ν → Files ν}
    {value : α} :
    act system operation done undone disk = (.ok value, after) ↔
      system.fails disk.clock operation = false ∧ done disk.files = .ok (value, after.files) ∧
        after.clock = disk.clock + 1 := by
  rw [act]
  split
  next fails => simp [fails]
  next works =>
    rw [eq_false_of_ne_true works]
    cases isDone : done disk.files with
    | error kind => simp
    | ok result =>
      obtain ⟨other, files⟩ := result
      obtain ⟨afterFiles, clock⟩ := after
      simp only [Prod.mk.injEq, Except.ok.injEq, Disk.mk.injEq, true_and]
      constructor
      · rintro ⟨rfl, rfl, rfl⟩
        exact ⟨⟨rfl, rfl⟩, rfl⟩
      · rintro ⟨⟨rfl, rfl⟩, rfl⟩
        exact ⟨rfl, rfl, rfl⟩

omit [DecidableEq ν] in
/-- What works when nothing fails. -/
theorem act_of_not_fails {done : Files ν → Except ErrorKind (α × Files ν)} {undone : Nat → Files ν → Files ν}
    (works : system.fails disk.clock operation = false) {value : α} {files : Files ν}
    (isDone : done disk.files = .ok (value, files)) :
    act system operation done undone disk = (.ok value, ⟨files, disk.clock + 1⟩) :=
  act_eq_ok_iff.mpr ⟨works, isDone, rfl⟩

omit [DecidableEq ν] in
theorem inspect_eq_ok_iff {read : Files ν → Except ErrorKind α} {value : α} :
    inspect system operation read disk = (.ok value, after) ↔
      system.fails disk.clock operation = false ∧ read disk.files = .ok value ∧ disk.files = after.files ∧
        after.clock = disk.clock + 1 := by
  rw [inspect, act_eq_ok_iff]
  cases read disk.files <;> simp [Except.map, and_assoc]

omit [DecidableEq ν] in
theorem inspect_of_not_fails {read : Files ν → Except ErrorKind α} {value : α}
    (works : system.fails disk.clock operation = false) (isRead : read disk.files = .ok value) :
    inspect system operation read disk = (.ok value, ⟨disk.files, disk.clock + 1⟩) :=
  inspect_eq_ok_iff.mpr ⟨works, isRead, rfl, rfl⟩

/-- A file that is removed is gone. -/
theorem removeFile_of_not_fails {path : List ν} (works : system.fails disk.clock (.removeFile path) = false)
    (isRegular : isFile disk.files path = true) :
    removeFile system path disk = (.ok (), ⟨disk.files.erase path, disk.clock + 1⟩) :=
  act_of_not_fails works (if_pos isRegular)

/-- A directory that is removed is gone with all that was in it. -/
theorem removeTree_of_not_fails {path : List ν} (works : system.fails disk.clock (.removeTree path) = false)
    (isThere : isDirectory disk.files path = true) :
    ∃ files, removeTree system path disk = (.ok (), ⟨files, disk.clock + 1⟩) ∧
      (∀ other, path <+: other → files.get? other = none) ∧
      ∀ other, ¬path <+: other → files.get? other = disk.files.get? other := by
  have isGone := Dict.get?_delete disk.files fun other => path.isPrefixOf other
  refine ⟨_, act_of_not_fails works (if_pos isThere), fun other isBelow => ?_, fun other outside => ?_⟩
  · refine (isGone other).trans ?_
    rw [List.isPrefixOf_iff_prefix.mpr isBelow, if_pos rfl]
  · refine (isGone other).trans ?_
    rw [eq_false_of_ne_true fun isBelow => outside (List.isPrefixOf_iff_prefix.mp isBelow)]
    rfl

omit [DecidableEq ν] in
/-- What fails without a trace leaves the tree as it was. -/
theorem files_of_act_error {done : Files ν → Except ErrorKind (α × Files ν)} {error : FileError}
    (failed : act system operation done untouched disk = (.error error, after)) : after.files = disk.files := by
  rw [act] at failed
  split at failed
  · cases failed
    rfl
  · split at failed <;> cases failed
    rfl

end Returns

/-! ## What is left alone -/

section Frames

variable {system} {α : Type} {operation : Operation ν} {below : Files ν → Files ν → Prop}

/-- An order on trees, between the disks that have them. -/
def OnFiles (below : Files ν → Files ν → Prop) (disk after : Disk ν) : Prop := below disk.files after.files

instance [Std.Refl below] : Std.Refl (OnFiles below) := ⟨fun disk => Std.Refl.refl disk.files⟩

instance [IsTrans (Files ν) below] : IsTrans (Disk ν) (OnFiles below) :=
  ⟨fun first second third => IsTrans.trans first.files second.files third.files⟩

variable [Std.Refl below]

omit [DecidableEq ν] in
theorem within_act {done : Files ν → Except ErrorKind (α × Files ν)} {undone : Nat → Files ν → Files ν}
    (whenDone : ∀ files value after, done files = .ok (value, after) → below files after)
    (whenUndone : ∀ time files, below files (undone time files)) :
    Acting.Within (OnFiles below) (act system operation done undone) := by
  intro disk
  rw [act, OnFiles]
  split
  · exact whenUndone disk.clock disk.files
  · split
    next value files isDone => exact whenDone disk.files value files isDone
    next => exact Std.Refl.refl disk.files

omit [DecidableEq ν] in
theorem within_inspect (read : Files ν → Except ErrorKind α) :
    Acting.Within (OnFiles below) (inspect system operation read) := by
  refine within_act (fun files value after isDone => ?_) fun _ files => Std.Refl.refl files
  obtain ⟨given, -, same⟩ := except_map_eq_ok_iff.mp isDone
  cases same
  exact Std.Refl.refl files

omit [DecidableEq ν] in
theorem within_test {ε : Type} (check : Files ν → Bool) :
    Acting.Within (OnFiles below) (test system operation check : Acting (Disk ν) ε Bool) :=
  fun disk => Std.Refl.refl disk.files

theorem within_list (path : List ν) : Acting.Within (OnFiles below) (list system path) :=
  fun disk => within_inspect _ disk

theorem within_openAndSync [IsTrans (Files ν) below] (path : List ν) :
    Acting.Within (OnFiles below) (openAndSync system path) :=
  (within_inspect _).bind fun _ => within_inspect _

/-- Syncing changes nothing. -/
theorem files_of_openAndSync {path : List ν} {disk after : Disk ν} {result : Except FileError Unit}
    (ran : openAndSync system path disk = (result, after)) : after.files = disk.files := by
  have within : Acting.Within (OnFiles (Eq : Files ν → Files ν → Prop)) (openAndSync system path) :=
    within_openAndSync path
  exact (within.of_eq ran).symm

theorem within_createDirectory {path : List ν}
    (creates : ∀ files, files.get? path = none → below files (files.set path .directory)) :
    Acting.Within (OnFiles below) (createDirectory system path) := by
  refine within_act (fun files value after isDone => ?_) fun _ files => Std.Refl.refl files
  split at isDone
  next => cases isDone
  next isNew =>
    split at isDone
    next =>
      cases isDone
      exact creates files (Option.not_isSome_iff_eq_none.mp fun isThere => isNew (.inr isThere))
    next => cases isDone

theorem within_removeFile {path : List ν} (removes : ∀ files, below files (files.erase path)) :
    Acting.Within (OnFiles below) (removeFile system path) := by
  refine within_act (fun files value after isDone => ?_) fun _ files => Std.Refl.refl files
  split at isDone
  next =>
    cases isDone
    exact removes files
  next => cases isDone

/-- A removal, whole or in part, removes nothing but what is under the path. -/
theorem within_removeTree {path : List ν}
    (removes : ∀ files (gone : List ν → Bool), (∀ other, gone other = true → path <+: other) →
      below files (files.delete fun row => gone row.1)) :
    Acting.Within (OnFiles below) (removeTree system path) := by
  refine within_act (fun files value after isDone => ?_) fun time files => ?_
  · split at isDone
    next =>
      cases isDone
      exact removes files (fun other => path.isPrefixOf other) fun other => List.isPrefixOf_iff_prefix.mp
    next => cases isDone
  · refine removes files (fun other => path.isPrefixOf other &&
      other.inits.any fun above => path.isPrefixOf above && !system.leaves time above) fun other isGone => ?_
    rw [Bool.and_eq_true] at isGone
    exact List.isPrefixOf_iff_prefix.mp isGone.1

theorem within_copy {source dest : List ν} (writes : ∀ files bytes, below files (files.set dest (.file bytes))) :
    Acting.Within (OnFiles below) (copy system source dest) := by
  refine within_act (fun files value after isDone => ?_) fun time files => ?_
  · split at isDone
    next =>
      split at isDone
      next =>
        cases isDone
        exact writes files _
      next => cases isDone
    next => cases isDone
  · split
    next =>
      split
      · exact writes files _
      · exact Std.Refl.refl files
    next => exact Std.Refl.refl files

end Frames

end FileTree

end TutaBridge.Std
