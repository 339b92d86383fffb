import TutaBridge.Session.PassWrite
import Mathlib.Data.List.Infix

/-!
# The preserving write is atomic

All that `write_preserving` does before the rename is confined to what interrupted runs left beside
the entry, to its own staging directory and to directories that were missing. So a write that fails
leaves the entry's file as it was, and one that succeeds leaves what was read back. The one exception
is an entry whose own file is named, or is in a directory that is named, like what is swept.
-/

namespace TutaBridge.Session.PassWrite

open TutaBridge.Std
open TutaBridge.Std.FileTree
open TutaBridge.Std.UnixPaths

variable {files after : Files Name} {staging : Path} {write : PassStore → Run Unit} {path : Path}

/-! ## Names of staging directories -/

theorem isAsciiHexdigit_hexDigit {value : Nat} (bounded : value < 16) : isAsciiHexdigit (hexDigit value) = true := by
  have allDigits : ∀ value < 16, isAsciiHexdigit (hexDigit value) = true := by decide
  exact allDigits value bounded

theorem length_hex16 (value : BitVec 64) : (hex16 value).length = 16 := by
  rw [hex16, List.length_map, List.length_range]

theorem all_hex16 (value : BitVec 64) : (hex16 value).all isAsciiHexdigit = true := by
  rw [List.all_eq_true]
  intro char mem
  obtain ⟨place, -, rfl⟩ := List.mem_map.mp mem
  exact isAsciiHexdigit_hexDigit (Nat.mod_lt _ (by omega))

/-- The staging directory is one of those that are swept later. -/
theorem isPendingName_pendingName (value : BitVec 64) : isPendingName (pendingName value) = true := by
  have noExtension : stripSuffix? gpgExtension (hex16 value) = none := by
    rw [stripSuffix?, if_neg]
    intro isSuffix
    have mem : 'g' ∈ hex16 value := (List.isSuffixOf_iff_suffix.mp isSuffix).subset (by decide)
    have isHex := List.all_eq_true.mp (all_hex16 value) 'g' mem
    revert isHex
    decide
  have isHex : pendingHex (pendingName value) = hex16 value := by
    rw [pendingHex, pendingName, List.drop_left, noExtension, Option.getD_none]
  have isStart : pendingStart.isPrefixOf (pendingName value) = true :=
    List.isPrefixOf_iff_prefix.mpr (List.prefix_append _ _)
  rw [isPendingName, isHex, isStart, length_hex16, all_hex16]
  rfl

/-! ## What may change -/

/-- In or below something beside the entry that has the name of what interrupted runs leave. -/
def UnderPending (parent path : Path) : Prop :=
  ∃ name, isPendingName name = true ∧ (parent ++ [name]) <+: path

/-- What changed is gone from what interrupted runs left, is in the staging directory, or was missing on
the way to the entry. -/
def Confined (parent staging : Path) (files after : Files Name) : Prop :=
  ∀ path, after.get? path = files.get? path ∨
    UnderPending parent path ∧ (after.get? path = none ∨ staging <+: path) ∨
    path <+: parent ∧ files.get? path = none

theorem not_underPending_of_above {parent path : Path} (isAbove : path <+: parent) : ¬UnderPending parent path := by
  rintro ⟨name, -, isBelow⟩
  have longer := isBelow.length_le
  have shorter := isAbove.length_le
  rw [List.length_append, List.length_singleton] at longer
  omega

theorem underPending_staging (parent : Path) (value : BitVec 64)
    (isStaging : (parent ++ [pendingName value]) <+: path) : UnderPending parent path :=
  ⟨pendingName value, isPendingName_pendingName value, isStaging⟩

section Confined

variable {parent staging : Path}

instance : Std.Refl (Confined parent staging) := ⟨fun _ _ => .inl rfl⟩

instance : IsTrans (Files Name) (Confined parent staging) where
  trans files between after first second := by
    intro path
    rcases second path with same | isPending | ⟨isAbove, wasMissing⟩
    · rw [same]
      exact first path
    · exact .inr (.inl isPending)
    · rcases first path with same | ⟨isPending, -⟩ | isNew
      · exact .inr (.inr ⟨isAbove, same ▸ wasMissing⟩)
      · exact absurd isPending (not_underPending_of_above isAbove)
      · exact .inr (.inr isNew)

/-- What is outside stays. -/
theorem Confined.get?_eq (confined : Confined parent staging files after)
    (outside : ¬UnderPending parent path) (notAbove : ¬path <+: parent) : after.get? path = files.get? path := by
  rcases confined path with same | ⟨isPending, -⟩ | ⟨isAbove, -⟩
  · exact same
  · exact absurd isPending outside
  · exact absurd isAbove notAbove

theorem Confined.get?_of_some (confined : Confined parent staging files after) {item : Item}
    (wasThere : files.get? path = some item) :
    after.get? path = some item ∨ UnderPending parent path ∧ (after.get? path = none ∨ staging <+: path) := by
  rcases confined path with same | isPending | ⟨-, wasMissing⟩
  · exact .inl (same.trans wasThere)
  · exact .inr isPending
  · rw [wasThere] at wasMissing
    cases wasMissing

/-- A change of one path. -/
theorem confined_of_one {changed : Path} (others : ∀ path, path ≠ changed → after.get? path = files.get? path)
    (allowed : UnderPending parent changed ∧ (after.get? changed = none ∨ staging <+: changed) ∨
      changed <+: parent ∧ files.get? changed = none) : Confined parent staging files after := by
  intro path
  by_cases same : path = changed
  · subst same
    exact .inr allowed
  · exact .inl (others path same)

end Confined

/-! ## Every step before the rename -/

section Steps

variable {system : System Name} {pass : Pass} {parent : Path} {value : BitVec 64}

/-- In the staging directory everything may be done. -/
theorem confined_staging {changed : Path}
    (others : ∀ path, path ≠ changed → after.get? path = files.get? path)
    (isStaging : (parent ++ [pendingName value]) <+: changed) :
    Confined parent (parent ++ [pendingName value]) files after :=
  confined_of_one others (.inl ⟨underPending_staging parent value isStaging, .inr isStaging⟩)

theorem confined_set_staging (files : Files Name) (item : Item)
    (isStaging : (parent ++ [pendingName value]) <+: path) :
    Confined parent (parent ++ [pendingName value]) files (files.set path item) :=
  confined_staging (fun other different => by rw [Dict.get?_set, if_neg different]) isStaging

theorem confined_erase_staging (files : Files Name) (isStaging : (parent ++ [pendingName value]) <+: path) :
    Confined parent (parent ++ [pendingName value]) files (files.erase path) :=
  confined_staging (fun other different => by rw [Dict.get?_erase, if_neg different]) isStaging

/-- Removals below what interrupted runs left. -/
theorem confined_delete (files : Files Name) (gone : Path → Bool)
    (isPending : ∀ path, gone path = true → UnderPending parent path) :
    Confined parent staging files (files.delete fun row => gone row.1) := by
  intro path
  have isGone := Dict.get?_delete files gone path
  cases isDeleted : gone path with
  | true =>
    rw [isDeleted] at isGone
    exact .inr (.inl ⟨isPending path isDeleted, .inl isGone⟩)
  | false =>
    rw [isDeleted] at isGone
    exact .inl isGone

theorem prefix_of_missingDirectories {reversed : Path} {disk after : Disk Name} {missing : List Path}
    (ran : missingDirectories system reversed disk = (.ok missing, after)) :
    ∀ path ∈ missing, path <+: reversed.reverse := by
  induction reversed generalizing disk missing after with
  | nil =>
    obtain ⟨rfl, -⟩ := Acting.pure_eq_iff.mp ran
    exact List.forall_mem_nil _
  | cons name above ih =>
    rw [missingDirectories, Acting.bind_eq_iff] at ran
    obtain ⟨isThere, between, -, ran⟩ := ran
    split at ran
    next =>
      obtain ⟨rfl, -⟩ := Acting.pure_eq_iff.mp ran
      exact List.forall_mem_nil _
    next =>
      obtain ⟨more, _, areMore, ran⟩ := Acting.bind_eq_iff.mp ran
      obtain ⟨rfl, -⟩ := Acting.pure_eq_iff.mp ran
      refine List.forall_mem_cons.mpr ⟨List.prefix_refl _, fun path mem => ?_⟩
      refine (ih areMore path mem).trans ?_
      rw [List.reverse_cons]
      exact List.prefix_append _ _

theorem within_missingDirectories (reversed : Path) :
    Acting.Within (OnFiles (Confined parent staging)) (missingDirectories system reversed) := by
  induction reversed with
  | nil => exact Acting.within_pure _
  | cons name above ih =>
    refine (within_test _).bind fun isThere => ?_
    split
    · exact Acting.within_pure _
    · exact ih.bind fun more => Acting.within_pure _

theorem within_makeDirectory {staging directory : Path} (isAbove : directory <+: parent) :
    Acting.Within (OnFiles (Confined parent staging)) (makeDirectory system directory) := by
  have creates : Acting.Within (OnFiles (Confined parent staging)) (createDirectory system directory) := by
    refine within_createDirectory fun files isMissing => confined_of_one (fun path different => ?_) (.inr ⟨isAbove, isMissing⟩)
    rw [Dict.get?_set, if_neg different]
  refine creates.attempt.bind fun created => ?_
  cases created with
  | ok => exact Acting.within_pure _
  | error error =>
    show Acting.Within _ (if _ then _ else _)
    split
    · refine (within_test _).bind fun isThere => ?_
      split
      · exact Acting.within_pure _
      · exact Acting.within_lift _
    · exact Acting.within_lift _

theorem within_createDurableDirectory {staging directory : Path} (isAbove : directory <+: parent) :
    Acting.Within (OnFiles (Confined parent staging)) (createDurableDirectory system directory) :=
  (within_makeDirectory isAbove).bind fun _ => (within_openAndSync _).bind fun _ => within_openAndSync _

theorem within_createDurableDirectories :
    Acting.Within (OnFiles (Confined parent staging)) (createDurableDirectories system parent) := by
  refine (within_missingDirectories _).bind_of_returns (fun disk missing after ran => prefix_of_missingDirectories ran)
    fun missing areAbove => Acting.within_forM fun directory mem => within_createDurableDirectory ?_
  have isAbove := areAbove directory (List.mem_reverse.mp mem)
  rwa [List.reverse_reverse] at isAbove

theorem within_sweepEntry (name : Name) :
    Acting.Within (OnFiles (Confined parent staging)) (sweepEntry system parent name) := by
  refine (within_inspect _).mapError.bind fun _ => ?_
  split
  next isPending =>
    refine (within_inspect _).mapError.bind fun kind => ?_
    have isUnder : ∀ path, (parent ++ [name]) <+: path → UnderPending parent path :=
      fun path isBelow => ⟨name, isPending, isBelow⟩
    have erases : ∀ files : Files Name, Confined parent staging files (files.erase (parent ++ [name])) := by
      intro files
      refine confined_of_one (fun path different => ?_) (.inl ⟨isUnder _ (List.prefix_refl _), .inl ?_⟩)
      · rw [Dict.get?_erase, if_neg different]
      · rw [Dict.get?_erase, if_pos rfl]
    have deletes : ∀ (files : Files Name) (gone : Path → Bool),
        (∀ path, gone path = true → (parent ++ [name]) <+: path) →
          Confined parent staging files (files.delete fun row => gone row.1) :=
      fun files gone below => confined_delete files gone fun path isGone => isUnder path (below path isGone)
    split
    · exact (within_removeFile erases).attempt.bind fun _ => Acting.within_pure _
    · exact (within_removeTree deletes).attempt.bind fun _ => Acting.within_pure _
    · exact Acting.within_pure _
  · exact Acting.within_pure _

theorem within_prepareParent :
    Acting.Within (OnFiles (Confined parent staging)) (prepareParent system parent) :=
  within_createDurableDirectories.mapError.bind fun _ => (within_list _).mapError.bind fun _ =>
    Acting.within_forM fun name _ => within_sweepEntry name

theorem within_findRecipient {staging directory : Path} (reversed : Path) :
    Acting.Within (OnFiles (Confined parent staging)) (findRecipient system directory reversed) := by
  induction reversed with
  | nil =>
    refine (within_test _).bind fun isThere => ?_
    split
    · exact Acting.within_pure _
    · exact Acting.within_lift _
  | cons name above ih =>
    refine (within_test _).bind fun isThere => ?_
    split
    · exact Acting.within_pure _
    · exact ih

/-- What `pass` does in the staging directory stays there. -/
theorem within_write (secret : List UInt8) (entry : Text) :
    Acting.Within (OnFiles (Confined parent (parent ++ [pendingName value])))
      (PassStore.write pass ⟨entry, some (parent ++ [pendingName value])⟩ secret) := by
  refine (Acting.within_lift _).bind_of_returns (fun disk directory after ran => (Acting.lift_eq_iff.mp ran).1)
    fun directory isDirectory => ?_
  cases isDirectory
  intro disk
  show Confined _ _ disk.files (List.foldl _ disk.files _)
  generalize (pass.insertEntry _ _ _ _).2 = changes
  generalize disk.files = files
  induction changes generalizing files with
  | nil => exact Std.Refl.refl files
  | cons change rest ih =>
    refine IsTrans.trans _ _ _ ?_ (ih (applyChange _ files change))
    rw [applyChange]
    split
    · exact Std.Refl.refl files
    · split
      · exact confined_set_staging files _ (List.prefix_append _ _)
      · exact confined_erase_staging files (List.prefix_append _ _)

theorem within_read (store : PassStore) :
    Acting.Within (OnFiles (Confined parent staging)) (store.read system pass) := by
  refine (Acting.within_lift _).bind fun directory => (within_inspect _).mapError.bind fun isThere => ?_
  split
  · exact Acting.within_pure _
  · exact Acting.within_get.bind fun disk => (Acting.within_lift _).bind fun output => Acting.within_pure _

theorem within_writeAndVerify (secret : List UInt8) (entry : Text) :
    Acting.Within (OnFiles (Confined parent (parent ++ [pendingName value])))
      (writeAndVerify system pass secret ⟨entry, some (parent ++ [pendingName value])⟩) := by
  refine (within_write secret entry).bind fun _ => (within_read _).mapError.bind fun verified => ?_
  split
  · exact Acting.within_pure _
  · exact Acting.within_lift _

theorem within_copyToStaging (source : Path) (name : Name) :
    Acting.Within (OnFiles (Confined parent (parent ++ [pendingName value])))
      (copy system source (parent ++ [pendingName value] ++ [name])) :=
  within_copy fun files bytes => confined_set_staging files (.file bytes) (List.prefix_append _ _)

theorem within_copySignature (recipient : Path) :
    Acting.Within (OnFiles (Confined parent (parent ++ [pendingName value])))
      (copySignature system recipient (parent ++ [pendingName value])) := by
  refine (within_test _).bind fun isSigned => ?_
  split
  · exact (within_copyToStaging _ _).mapError
  · exact Acting.within_pure _

theorem within_stageSession {directory : Path}
    (within : Acting.Within (OnFiles (Confined parent (parent ++ [pendingName value])))
      (write ⟨session, some (parent ++ [pendingName value])⟩)) :
    Acting.Within (OnFiles (Confined parent (parent ++ [pendingName value])))
      (stageSession system directory parent (parent ++ [pendingName value]) write) := by
  refine (within_findRecipient _).bind fun recipient => (within_copyToStaging _ _).mapError.bind fun _ =>
    (within_copySignature _).bind fun _ => within.bind fun _ => (within_inspect _).mapError.bind fun isRegular => ?_
  split
  · exact (within_openAndSync _).mapError
  · exact Acting.within_lift _

theorem within_removeStaging : Acting.Within (OnFiles (Confined parent (parent ++ [pendingName value])))
      (removeTree system (parent ++ [pendingName value])) :=
  within_removeTree fun files gone below =>
    confined_delete files gone fun path isGone => underPending_staging parent value (below path isGone)

end Steps

/-! ## The rename -/

section Commit

variable {system : System Name} {pass : Pass} {directory parent staging target : Path} {disk after : Disk Name}
  {write : PassStore → Run Unit}

/-- What was staged is what the last write left. -/
theorem stageSession_eq_ok (ran : stageSession system directory parent staging write disk = (.ok (), after)) :
    ∃ before written, write ⟨session, some staging⟩ before = (.ok (), written) ∧ written.files = after.files := by
  simp only [stageSession, Acting.bind_eq_iff, Acting.mapError_eq_iff] at ran
  obtain ⟨recipient, _, -, _, _, -, _, before, -, _, written, isWritten, isRegular, between, isKnown, ran⟩ := ran
  refine ⟨before, written, isWritten, ?_⟩
  obtain ⟨-, -, same, -⟩ := inspect_eq_ok_iff.mp isKnown
  split at ran
  · rw [same, files_of_openAndSync (Acting.mapError_eq_iff.mp ran)]
  · exact absurd ran Acting.stop_ne

/-- A rename puts the staged file in the place of the entry's. -/
theorem rename_eq_ok {source : Path} (ran : rename system source target disk = (.ok (), after)) :
    ∃ bytes, disk.files.get? source = some (.file bytes) ∧
      after.files = (disk.files.erase source).set target (.file bytes) := by
  rw [rename, act_eq_ok_iff] at ran
  obtain ⟨-, isDone, -⟩ := ran
  split at isDone
  next bytes found =>
    split at isDone
    next =>
      obtain ⟨-, same⟩ := Prod.mk.inj (Except.ok.inj isDone)
      exact ⟨bytes, found, same.symm⟩
    next => cases isDone
  next => cases isDone

theorem stageAndCommit_eq_ok (ran : stageAndCommit system directory parent staging target write disk = (.ok (), after)) :
    ∃ staged bytes, stageSession system directory parent staging write disk = (.ok (), staged) ∧
      staged.files.get? (staging ++ [sessionGpg]) = some (.file bytes) ∧
      after.files = (staged.files.erase (staging ++ [sessionGpg])).set target (.file bytes) := by
  simp only [stageAndCommit, Acting.bind_eq_iff, Acting.mapError_eq_iff] at ran
  obtain ⟨_, staged, isStaged, _, renamed, isRenamed, synced, last, isSynced, ran⟩ := ran
  obtain ⟨bytes, found, same⟩ := rename_eq_ok isRenamed
  obtain ⟨-, rfl⟩ := Acting.pure_eq_iff.mp ran
  refine ⟨staged, bytes, isStaged, found, ?_⟩
  rw [← same]
  exact files_of_openAndSync (Acting.attempt_eq_iff.mp isSynced)

/-- A run that stops before the rename has changed only what it may. -/
theorem stageAndCommit_eq_error {value : BitVec 64} {error : Stop}
    (within : Acting.Within (OnFiles (Confined parent (parent ++ [pendingName value])))
      (write ⟨session, some (parent ++ [pendingName value])⟩))
    (ran : stageAndCommit system directory parent (parent ++ [pendingName value]) target write disk =
      (.error error, after)) : Confined parent (parent ++ [pendingName value]) disk.files after.files := by
  rw [stageAndCommit, Acting.bind_eq_error_iff] at ran
  rcases ran with isStopped | ⟨_, staged, isStaged, ran⟩
  · exact (within_stageSession within).of_eq isStopped
  · have isConfined : Confined _ _ disk.files staged.files := (within_stageSession within).of_eq isStaged
    rcases Acting.bind_eq_error_iff.mp ran with isStopped | ⟨_, renamed, -, ran⟩
    · obtain ⟨reason, failed, -⟩ := Acting.mapError_eq_error_iff.mp isStopped
      rw [files_of_act_error failed]
      exact isConfined
    · rcases Acting.bind_eq_error_iff.mp ran with isStopped | ⟨_, _, -, ran⟩
      · cases isStopped
      · cases ran

/-- What was written is what was read back. -/
theorem writeAndVerify_eq_ok {secret : List UInt8}
    (ran : writeAndVerify system pass secret ⟨session, some staging⟩ disk = (.ok (), after)) :
    ∃ time, pass.showEntry time (under after.files staging) session = .ok secret := by
  rw [writeAndVerify, Acting.bind_eq_iff] at ran
  obtain ⟨_, written, -, ran⟩ := ran
  obtain ⟨verified, checked, isRead, ran⟩ := Acting.bind_eq_iff.mp ran
  split at ran
  next same =>
    obtain ⟨-, rfl⟩ := Acting.pure_eq_iff.mp ran
    rw [same, Acting.mapError_eq_iff, PassStore.read, Acting.bind_eq_iff] at isRead
    obtain ⟨found, _, isFound, isRead⟩ := isRead
    obtain ⟨isDirectory, rfl⟩ := Acting.lift_eq_iff.mp isFound
    cases isDirectory
    obtain ⟨isThere, looked, -, isRead⟩ := Acting.bind_eq_iff.mp isRead
    split at isRead
    next => cases (Acting.pure_eq_iff.mp isRead).1
    next =>
      simp only [Acting.bind_eq_iff, Acting.get_eq_iff, Acting.lift_eq_iff, Acting.pure_eq_iff,
        except_mapError_eq_ok_iff] at isRead
      obtain ⟨read, _, ⟨rfl, rfl⟩, output, _, ⟨isShown, rfl⟩, same, rfl⟩ := isRead
      cases same
      exact ⟨looked.clock, isShown⟩
  next => exact absurd ran Acting.stop_ne

end Commit

/-! ## Whole runs -/

section Outcome

variable {system : System Name} {pass : Pass} {directory parent target : Path} {secret : List UInt8}
  {disk after : Disk Name}

/-- What a run leaves that has stopped: nothing outside has changed. -/
def HasStopped (parent : Path) (files after : Files Name) : Prop :=
  ∃ value, Confined parent (parent ++ [pendingName value]) files after

/-- What a run leaves that has returned: the staged file, which was read back, in the entry's place, and
nothing else outside has changed. -/
def HasCommitted (pass : Pass) (parent target : Path) (secret : List UInt8) (files after : Files Name) : Prop :=
  ∃ value bytes time staged, Confined parent (parent ++ [pendingName value]) files staged ∧
    staged.get? (parent ++ [pendingName value, sessionGpg]) = some (.file bytes) ∧
    pass.showEntry time (under staged (parent ++ [pendingName value])) session = .ok secret ∧
    Confined parent (parent ++ [pendingName value])
      ((staged.erase (parent ++ [pendingName value, sessionGpg])).set target (.file bytes)) after

theorem HasStopped.behind {files between after : Files Name} (stopped : HasStopped parent between after)
    (begins : ∀ staging, Confined parent staging files between) : HasStopped parent files after := by
  obtain ⟨value, confined⟩ := stopped
  exact ⟨value, IsTrans.trans _ _ _ (begins _) confined⟩

theorem HasCommitted.behind {files between after : Files Name}
    (committed : HasCommitted pass parent target secret between after)
    (begins : ∀ staging, Confined parent staging files between) :
    HasCommitted pass parent target secret files after := by
  obtain ⟨value, bytes, time, staged, confined, others⟩ := committed
  exact ⟨value, bytes, time, staged, IsTrans.trans _ _ _ (begins _) confined, others⟩

theorem within_createStaging {value : BitVec 64} :
    Acting.Within (OnFiles (Confined parent (parent ++ [pendingName value])))
      (createDirectory system (parent ++ [pendingName value])) :=
  within_createDirectory fun files _ => confined_set_staging files .directory (List.prefix_refl _)

/-- The cleanup returns what the closure returned, and leaves all outside alone. -/
theorem stageBeside_cases {result : Except Stop Unit}
    (ran : stageBeside system directory parent target write disk = (result, after)) :
    ∃ value, (∃ error, createDirectory system (parent ++ [pendingName value]) disk = (.error error, after) ∧
        result = .error (.ofFile error)) ∨
      ∃ begun committed, createDirectory system (parent ++ [pendingName value]) disk = (.ok (), begun) ∧
        stageAndCommit system directory parent (parent ++ [pendingName value]) target write begun =
          (result, committed) ∧
        Confined parent (parent ++ [pendingName value]) committed.files after.files := by
  refine ⟨system.random disk.clock, ?_⟩
  rw [stageBeside, Acting.bind_of_ok (Acting.get_eq_iff.mpr ⟨rfl, rfl⟩)] at ran
  cases created : createDirectory system (parent ++ [pendingName (system.random disk.clock)]) disk with
  | mk createdResult begun =>
    cases createdResult with
    | error error =>
      rw [Acting.bind_of_error (Acting.mapError_eq_error_iff.mpr ⟨error, created, rfl⟩)] at ran
      cases ran
      exact .inl ⟨error, rfl, rfl⟩
    | ok =>
      rw [Acting.bind_of_ok (Acting.mapError_eq_iff.mpr created)] at ran
      cases staged : stageAndCommit system directory parent (parent ++ [pendingName (system.random disk.clock)])
          target write begun with
      | mk stagedResult committed =>
        rw [Acting.bind_of_ok (Acting.attempt_eq_iff.mpr staged)] at ran
        cases removed : removeTree system (parent ++ [pendingName (system.random disk.clock)]) committed with
        | mk removedResult cleaned =>
          rw [Acting.bind_of_ok (Acting.attempt_eq_iff.mpr removed)] at ran
          cases synced : openAndSync system parent cleaned with
          | mk syncedResult last =>
            rw [Acting.bind_of_ok (Acting.attempt_eq_iff.mpr synced)] at ran
            cases ran
            refine .inr ⟨begun, committed, rfl, staged, ?_⟩
            rw [files_of_openAndSync synced]
            exact within_removeStaging.of_eq removed

/-- With a staging directory of its own, a run stops before the rename or commits. -/
theorem stageBeside_outcome {result : Except Stop Unit}
    (ran : stageBeside system directory parent target (writeAndVerify system pass secret) disk = (result, after)) :
    (∀ error, result = .error error → HasStopped parent disk.files after.files) ∧
      (result = .ok () → HasCommitted pass parent target secret disk.files after.files) := by
  obtain ⟨value, ⟨error, created, rfl⟩ | ⟨begun, committed, created, staged, ends⟩⟩ := stageBeside_cases ran
  · exact ⟨fun _ _ => ⟨value, within_createStaging.of_eq created⟩, fun isOk => by cases isOk⟩
  · have within := @within_writeAndVerify system pass parent value secret session
    have begins : Confined parent (parent ++ [pendingName value]) disk.files begun.files :=
      within_createStaging.of_eq created
    constructor
    · rintro error rfl
      have confined := stageAndCommit_eq_error within staged
      exact ⟨value, IsTrans.trans _ _ _ begins (IsTrans.trans _ _ _ confined ends)⟩
    · rintro rfl
      obtain ⟨ready, bytes, isReady, found, isCommitted⟩ := stageAndCommit_eq_ok staged
      obtain ⟨before, written, isWritten, same⟩ := stageSession_eq_ok isReady
      obtain ⟨time, isShown⟩ := writeAndVerify_eq_ok isWritten
      have confined : Confined parent (parent ++ [pendingName value]) begun.files ready.files :=
        (within_stageSession within).of_eq isReady
      rw [List.append_assoc, List.singleton_append] at found isCommitted
      rw [same] at isShown
      rw [isCommitted] at ends
      exact ⟨value, bytes, time, ready.files, IsTrans.trans _ _ _ begins confined, found, isShown, ends⟩

end Outcome

/-! ## The search for recipients -/

/-- The search ends, at the store's directory at the latest. -/
theorem findRecipient_ends (system : System Name) (directory : Path) (below : Path) (disk : Disk Name) :
    ∃ recipient after, findRecipient system directory (below ++ directory.reverse) disk = (.ok recipient, after) ∧
      directory <+: recipient ∧ recipient <+: directory ++ below.reverse := by
  induction below generalizing disk with
  | nil =>
    rw [List.nil_append, List.reverse_nil, List.append_nil]
    refine ⟨directory, ⟨disk.files, disk.clock + 1⟩, ?_, List.prefix_refl _, List.prefix_refl _⟩
    cases isReversed : directory.reverse with
    | nil =>
      obtain rfl := List.reverse_eq_nil_iff.mp isReversed
      rw [findRecipient]
      refine (Acting.bind_of_ok rfl).trans ?_
      rw [if_pos (.inr rfl)]
      rfl
    | cons name above =>
      have isDirectory : (name :: above).reverse = directory := by rw [← isReversed, List.reverse_reverse]
      rw [findRecipient, isDirectory]
      refine (Acting.bind_of_ok rfl).trans ?_
      rw [if_pos (.inr rfl)]
      rfl
  | cons name rest ih =>
    rw [List.cons_append, findRecipient]
    have isPath : (name :: (rest ++ directory.reverse)).reverse = directory ++ (name :: rest).reverse := by
      simp
    obtain ⟨recipient, after, ran, isBelow, isAbove⟩ := ih ⟨disk.files, disk.clock + 1⟩
    rw [isPath]
    rw [Acting.bind_of_ok (show test system _ _ disk = (.ok _, ⟨disk.files, disk.clock + 1⟩) from rfl)]
    split
    · exact ⟨_, _, rfl, List.prefix_append _ _, List.prefix_refl _⟩
    · refine ⟨recipient, after, ran, isBelow, isAbove.trans ?_⟩
      rw [List.reverse_cons, ← List.append_assoc]
      exact List.prefix_append _ _

/-! ## What the write promises -/

def parentPath (directory : Path) (entry : Text) : Path := directory ++ PassStore.relativeParent entry

def targetPath (directory : Path) (entry : Text) : Path := directory ++ PassStore.relativeTarget entry

/-- The entry's own file has a name that is swept, or is in a directory that has. -/
def sweepsItself (entry : Text) : Bool :=
  (components entry).all Component.isNormal && names entry ≠ [] &&
    match (PassStore.relativeTarget entry).drop (PassStore.relativeParent entry).length with
    | item :: _ => isPendingName item
    | [] => false

/-- A write that is atomic. -/
structure IsAtomic (system : System Name) (pass : Pass) (directory : Path) (entry : Text) (secret : List UInt8)
    (files : Files Name) (result : Except Stop Unit) (after : Files Name) : Prop where
  /-- One that fails leaves the file of the entry as it was, … -/
  failed : ∀ error, result = .error error →
    after.get? (targetPath directory entry) = files.get? (targetPath directory entry)
  /-- … one that succeeds leaves the staged file there that was read back, … -/
  committed : result = .ok () → ∃ bytes time store, after.get? (targetPath directory entry) = some (.file bytes) ∧
    store [sessionGpg] = some (.file bytes) ∧ pass.showEntry time store session = .ok secret
  /-- … what else was there stays, but for what interrupted runs left beside the entry, which may be gone or
  have given its name to the staging directory, … -/
  spared : ∃ value, ∀ path item, files.get? path = some item → path ≠ targetPath directory entry →
    after.get? path = some item ∨ UnderPending (parentPath directory entry) path ∧
      (after.get? path = none ∨ (parentPath directory entry ++ [pendingName value]) <+: path)
  /-- … and the search for the recipients ends, at the directory of the store at the latest. -/
  searchEnds : ∀ disk, ∃ recipient last,
    findRecipient system directory (parentPath directory entry).reverse disk = (.ok recipient, last) ∧
      directory <+: recipient ∧ recipient <+: parentPath directory entry

section Promise

variable {system : System Name} {pass : Pass} {directory : Path} {entry : Text} {secret : List UInt8}
  {files after : Files Name}

theorem search_ends (system : System Name) (directory : Path) (entry : Text) (disk : Disk Name) : ∃ recipient last,
      findRecipient system directory (parentPath directory entry).reverse disk = (.ok recipient, last) ∧
        directory <+: recipient ∧ recipient <+: parentPath directory entry := by
  have ends := findRecipient_ends system directory (PassStore.relativeParent entry).reverse disk
  rw [List.reverse_reverse, ← List.reverse_append] at ends
  exact ends

/-- A run that does nothing is atomic. -/
theorem isAtomic_of_same (error : Stop) : IsAtomic system pass directory entry secret files (.error error) files where
  failed _ _ := rfl
  committed isOk := by cases isOk
  spared := ⟨0, fun _ _ wasThere _ => .inl wasThere⟩
  searchEnds := search_ends system directory entry

/-- The file of an entry is below its parent, in something that is not swept. -/
theorem target_outside (nonempty : names entry ≠ []) (isNormal : (components entry).all Component.isNormal = true)
    (spares : sweepsItself entry = false) : ¬UnderPending (parentPath directory entry) (targetPath directory entry) ∧
      ¬targetPath directory entry <+: parentPath directory entry := by
  obtain ⟨item, more, isTarget⟩ :=
    @exists_names_append_extension gpgExtension (by decide) (by decide) entry nonempty
  have isBelow : targetPath directory entry = parentPath directory entry ++ item :: more := by
    rw [targetPath, PassStore.relativeTarget, isTarget, parentPath, PassStore.relativeParent, List.append_assoc]
  have notPending : isPendingName item = false := by
    rw [sweepsItself, isNormal, decide_eq_true nonempty, PassStore.relativeTarget, PassStore.relativeParent, isTarget,
      List.drop_left] at spares
    exact spares
  rw [isBelow]
  constructor
  · rintro ⟨name, isPending, isUnder⟩
    obtain ⟨rest, same⟩ := isUnder
    rw [List.append_assoc, List.append_cancel_left_eq, List.singleton_append] at same
    obtain ⟨rfl, -⟩ := List.cons.inj same
    rw [notPending] at isPending
    cases isPending
  · intro isAbove
    have shorter := isAbove.length_le
    rw [List.length_append, List.length_cons] at shorter
    omega

/-- What has stopped is as it was. -/
theorem isAtomic_of_hasStopped (error : Stop)
    (outside : ¬UnderPending (parentPath directory entry) (targetPath directory entry))
    (notAbove : ¬targetPath directory entry <+: parentPath directory entry)
    (stopped : HasStopped (parentPath directory entry) files after) :
    IsAtomic system pass directory entry secret files (.error error) after := by
  obtain ⟨value, confined⟩ := stopped
  exact ⟨fun _ _ => confined.get?_eq outside notAbove, fun isOk => (by cases isOk),
    ⟨value, fun path item wasThere _ => confined.get?_of_some wasThere⟩, search_ends system directory entry⟩

/-- What has committed has the new file, and all else as it was. -/
theorem isAtomic_of_hasCommitted (outside : ¬UnderPending (parentPath directory entry) (targetPath directory entry))
    (notAbove : ¬targetPath directory entry <+: parentPath directory entry)
    (committed : HasCommitted pass (parentPath directory entry) (targetPath directory entry) secret files after) :
    IsAtomic system pass directory entry secret files (.ok ()) after := by
  obtain ⟨value, bytes, time, staged, begins, found, isShown, ends⟩ := committed
  have notFailed : ∀ error : Stop, (.ok () : Except Stop Unit) = .error error →
      after.get? (targetPath directory entry) = files.get? (targetPath directory entry) := by
    intro error isError
    cases isError
  refine ⟨notFailed, fun _ => ?_, ⟨value, fun path item wasThere different => ?_⟩, search_ends system directory entry⟩
  · refine ⟨bytes, time, _, ?_, ?_, isShown⟩
    · rw [ends.get?_eq outside notAbove, Dict.get?_set, if_pos rfl]
    · rw [under, List.append_assoc]
      exact found
  · have isStaging : (parentPath directory entry ++ [pendingName value]) <+:
        (parentPath directory entry ++ [pendingName value, sessionGpg]) := by
      refine ⟨[sessionGpg], ?_⟩
      rw [List.append_assoc]
      rfl
    have begun := IsTrans.trans _ _ _ begins (confined_erase_staging staged isStaging)
    rcases begun.get?_of_some wasThere with same | ⟨isPending, isGone⟩
    · refine ends.get?_of_some ?_
      rw [Dict.get?_set, if_neg different]
      exact same
    · refine .inr ⟨isPending, isGone.elim (fun isNone => ?_) .inr⟩
      rcases ends path with same | ⟨-, allowed⟩ | ⟨isAbove, -⟩
      · rw [Dict.get?_set, if_neg different, isNone] at same
        exact .inl same
      · exact allowed
      · exact absurd isPending (not_underPending_of_above isAbove)

/-- The write is atomic for an entry that it does not sweep itself. -/
theorem writePreserving_isAtomic (spares : sweepsItself entry = false) (disk : Disk Name) :
    IsAtomic system pass directory entry secret disk.files
      (writePreserving system pass ⟨entry, some directory⟩ secret disk).1
      (writePreserving system pass ⟨entry, some directory⟩ secret disk).2.files := by
  rw [writePreserving, writePreservingWith]
  split
  next isNormal =>
    rw [Acting.bind_of_ok (show Acting.lift (PassStore.directoryPath ⟨entry, some directory⟩) disk =
      (.ok directory, disk) from rfl)]
    split
    next => exact isAtomic_of_same _
    next nonempty =>
      obtain ⟨outside, notAbove⟩ := @target_outside directory entry nonempty isNormal spares
      cases prepared : prepareParent system (parentPath directory entry) disk with
      | mk result between =>
        have begins : ∀ staging, Confined (parentPath directory entry) staging disk.files between.files :=
          fun staging => within_prepareParent.of_eq prepared
        show IsAtomic _ _ _ _ _ _ ((prepareParent system (parentPath directory entry) >>= fun _ =>
            stageBeside system directory (parentPath directory entry) (targetPath directory entry)
              (writeAndVerify system pass secret)) disk).1
          ((prepareParent system (parentPath directory entry) >>= fun _ =>
            stageBeside system directory (parentPath directory entry) (targetPath directory entry)
              (writeAndVerify system pass secret)) disk).2.files
        cases result with
        | error error =>
          rw [Acting.bind_of_error prepared]
          exact isAtomic_of_hasStopped error outside notAbove ⟨0, begins _⟩
        | ok =>
          rw [Acting.bind_of_ok prepared]
          cases ran : stageBeside system directory (parentPath directory entry) (targetPath directory entry)
              (writeAndVerify system pass secret) between with
          | mk result last =>
            obtain ⟨stops, commits⟩ := stageBeside_outcome ran
            cases result with
            | error error =>
              exact isAtomic_of_hasStopped error outside notAbove ((stops error rfl).behind begins)
            | ok => exact isAtomic_of_hasCommitted outside notAbove ((commits rfl).behind begins)
  next => exact isAtomic_of_same _

end Promise

/-! ## What is swept -/

section Sweep

variable {system : System Name} {parent : Path}

/-- Nothing but the creation of a directory may fail. -/
def OnlyCreationFails (system : System Name) : Prop :=
  ∀ time operation, (∀ path, operation ≠ .createDirectory path) → system.fails time operation = false

/-- The sweep removes a path with the file or the directory it is in. -/
def Removable (files : Files Name) (root path : Path) : Prop :=
  path = root ∧ isFile files root = true ∨ root <+: path ∧ files.get? root = some .directory

/-- One step of the sweep. -/
theorem sweepEntry_spec (works : OnlyCreationFails system) (name : Name) (disk : Disk Name) :
    ∃ after, sweepEntry system parent name disk = (.ok (), after) ∧
      (∀ path, ¬(parent ++ [name]) <+: path → after.files.get? path = disk.files.get? path) ∧
      (∀ path, disk.files.get? path = none → after.files.get? path = none) ∧
      (isPendingName name = true → ∀ path, Removable disk.files (parent ++ [name]) path →
        after.files.get? path = none) := by
  have listed : inspect system (.nextEntry (parent ++ [name])) (fun _ => .ok ()) disk =
      (.ok (), ⟨disk.files, disk.clock + 1⟩) := inspect_of_not_fails (works _ _ (by simp)) rfl
  rw [sweepEntry, Acting.bind_of_ok (Acting.mapError_eq_iff.mpr listed)]
  split
  next isPending =>
    have known : inspect system (.fileType (parent ++ [name])) (fun files => .ok (files.get? (parent ++ [name])))
        ⟨disk.files, disk.clock + 1⟩ = (.ok (disk.files.get? (parent ++ [name])), ⟨disk.files, disk.clock + 1 + 1⟩) :=
      inspect_of_not_fails (works _ _ (by simp)) rfl
    rw [Acting.bind_of_ok (Acting.mapError_eq_iff.mpr known)]
    cases found : disk.files.get? (parent ++ [name]) with
    | none =>
      refine ⟨_, rfl, fun _ _ => rfl, fun _ isNone => isNone, fun _ path removable => ?_⟩
      rcases removable with ⟨-, isRegular⟩ | ⟨-, isDirectory⟩
      · rw [isFile, found] at isRegular
        cases isRegular
      · rw [found] at isDirectory
        cases isDirectory
    | some item =>
      cases item with
      | other =>
        refine ⟨_, rfl, fun _ _ => rfl, fun _ isNone => isNone, fun _ path removable => ?_⟩
        rcases removable with ⟨-, isRegular⟩ | ⟨-, isDirectory⟩
        · rw [isFile, found] at isRegular
          cases isRegular
        · rw [found] at isDirectory
          cases isDirectory
      | file bytes =>
        have isRegular : isFile disk.files (parent ++ [name]) = true := by rw [isFile, found]
        have removed : removeFile system (parent ++ [name]) ⟨disk.files, disk.clock + 1 + 1⟩ = _ :=
          removeFile_of_not_fails (works _ _ (by simp)) isRegular
        refine ⟨_, Acting.bind_of_ok (Acting.attempt_eq_iff.mpr removed), fun path outside => ?_,
          fun path isNone => ?_, fun _ path removable => ?_⟩
        · have different : path ≠ parent ++ [name] := fun same => outside (same ▸ List.prefix_refl _)
          show (disk.files.erase _).get? path = _
          rw [Dict.get?_erase, if_neg different]
        · show (disk.files.erase _).get? path = none
          rw [Dict.get?_erase, isNone, ite_self]
        · show (disk.files.erase _).get? path = none
          rcases removable with ⟨same, -⟩ | ⟨-, isDirectory⟩
          · rw [Dict.get?_erase, if_pos same]
          · rw [found] at isDirectory
            cases isDirectory
      | directory =>
        have isThere : isDirectory disk.files (parent ++ [name]) = true := by
          rw [isDirectory, found]
          simp
        obtain ⟨files, removed, areGone, others⟩ :=
          @removeTree_of_not_fails _ _ system ⟨disk.files, disk.clock + 1 + 1⟩ (parent ++ [name])
            (works _ _ (by simp)) isThere
        refine ⟨_, Acting.bind_of_ok (Acting.attempt_eq_iff.mpr removed), others, fun path isNone => ?_,
          fun _ path removable => ?_⟩
        · by_cases isBelow : (parent ++ [name]) <+: path
          · exact areGone path isBelow
          · exact (others path isBelow).trans isNone
        · rcases removable with ⟨same, -⟩ | ⟨isBelow, -⟩
          · exact areGone path (same ▸ List.prefix_refl _)
          · exact areGone path isBelow
  next notPending =>
    exact ⟨_, rfl, fun _ _ => rfl, fun _ isNone => isNone, fun isPending => absurd isPending notPending⟩

/-- A sweep that nothing fails leaves no file and no directory of an interrupted run. -/
theorem sweep_spec (works : OnlyCreationFails system) (found : List Name) (disk : Disk Name) :
    ∃ after, found.forM (sweepEntry system parent) disk = (.ok (), after) ∧
      (∀ path, disk.files.get? path = none → after.files.get? path = none) ∧
      ∀ name ∈ found, isPendingName name = true → ∀ path, Removable disk.files (parent ++ [name]) path →
        after.files.get? path = none := by
  induction found generalizing disk with
  | nil => exact ⟨disk, rfl, fun _ isNone => isNone, List.forall_mem_nil _⟩
  | cons head rest ih =>
    obtain ⟨between, isSwept, others, keepsNone, removes⟩ := sweepEntry_spec works head disk
    obtain ⟨after, isRest, restKeepsNone, restRemoves⟩ := ih between
    refine ⟨after, (Acting.bind_of_ok isSwept).trans isRest, fun path isNone =>
      restKeepsNone path (keepsNone path isNone), ?_⟩
    refine List.forall_mem_cons.mpr ⟨fun isPending path removable =>
      restKeepsNone path (removes isPending path removable), fun name mem isPending path removable => ?_⟩
    by_cases same : name = head
    · subst same
      exact restKeepsNone path (removes isPending path removable)
    · have outside : ∀ other, (parent ++ [name]) <+: other → ¬(parent ++ [head]) <+: other := by
        intro other isBelow isBelowHead
        obtain ⟨_, isOther⟩ := isBelow
        obtain ⟨_, isOtherToo⟩ := isBelowHead
        rw [← isOtherToo, List.append_assoc, List.append_assoc, List.append_cancel_left_eq] at isOther
        exact same (List.cons.inj isOther).1
      have isRoot := others _ (outside _ (List.prefix_refl _))
      refine restRemoves name mem isPending path ?_
      rcases removable with ⟨isPath, isRegular⟩ | ⟨isBelow, isDirectory⟩
      · refine .inl ⟨isPath, ?_⟩
        rw [isFile, isRoot, ← isFile]
        exact isRegular
      · exact .inr ⟨isBelow, isRoot.trans isDirectory⟩

end Sweep

/-! ## An entry that is swept -/

/-- A system in which only the staging directory cannot be made. -/
def refusingSystem (parent : Path) : System Name where
  fails _ operation := operation = .createDirectory (parent ++ [pendingName 0])
  reason _ _ := "denied"
  leaves _ _ := true
  written _ := none
  order _ names := names
  order_perm _ _ := List.Perm.refl _
  random _ := 0

/-- A `pass` that does nothing. -/
def idlePass : Pass where
  insertEntry _ _ _ _ := (.ok (), [])
  showEntry _ _ _ := .ok []

/-- A tree with one file, and the directories on its path. -/
def singleFile (target : Path) : Files Name :=
  Dict.set (target.inits.foldl (fun files path => Dict.set files path .directory) Table.empty) target (.file [])

theorem get?_foldl_set_directory (paths : List Path) (files : Files Name) (path : Path) :
    Dict.get? (paths.foldl (fun files path => Dict.set files path .directory) files) path =
      if path ∈ paths then some .directory else files.get? path := by
  induction paths generalizing files with
  | nil => simp
  | cons head rest ih =>
    rw [List.foldl_cons, ih, Dict.get?_set]
    by_cases inRest : path ∈ rest
    · simp [inRest]
    · by_cases isHead : path = head <;> simp [inRest, isHead]

theorem get?_singleFile (target path : Path) : (singleFile target).get? path =
      if path = target then some (.file []) else if path <+: target then some .directory else none := by
  rw [singleFile, Dict.get?_set, get?_foldl_set_directory]
  simp only [List.mem_inits, Dict.get?_empty]

section Swept

variable {parent : Path} {item : Name} {more : Path}

theorem onlyCreationFails_refusingSystem (parent : Path) : OnlyCreationFails (refusingSystem parent) :=
  fun _ _ notCreation => decide_eq_false (notCreation _)

theorem parent_ne (parent : Path) (item : Name) (more : Path) : parent ≠ parent ++ item :: more := by
  intro same
  have lengths := congrArg List.length same
  rw [List.length_append, List.length_cons] at lengths
  omega

theorem isDirectory_singleFile : isDirectory (singleFile (parent ++ item :: more)) parent = true := by
  rw [isDirectory, get?_singleFile, if_neg (parent_ne parent item more), if_pos (List.prefix_append _ _)]
  simp

theorem mem_children_singleFile : item ∈ children (singleFile (parent ++ item :: more)) parent := by
  refine List.mem_filterMap.mpr ⟨parent ++ [item], ?_, ?_⟩
  · rw [Dict.mem_keys_iff, get?_singleFile]
    have isBelow : (parent ++ [item]) <+: parent ++ item :: more := ⟨more, by simp⟩
    split <;> rfl
  · rw [List.dropLast_concat, if_pos rfl, List.getLast?_concat]

theorem removable_singleFile :
    Removable (singleFile (parent ++ item :: more)) (parent ++ [item]) (parent ++ item :: more) := by
  cases more with
  | nil =>
    refine .inl ⟨rfl, ?_⟩
    rw [isFile, get?_singleFile, if_pos rfl]
  | cons next rest =>
    have isBelow : (parent ++ [item]) <+: parent ++ item :: next :: rest := ⟨next :: rest, by simp⟩
    have different : parent ++ [item] ≠ parent ++ item :: next :: rest := by simp
    exact .inr ⟨isBelow, by rw [get?_singleFile, if_neg different, if_pos isBelow]⟩

/-- Where the parent is there, nothing is missing. -/
theorem createDurableDirectories_of_isDirectory {system : System Name} (works : OnlyCreationFails system)
    {disk : Disk Name} (isThere : isDirectory disk.files parent = true) :
    ∃ clock, createDurableDirectories system parent disk = (.ok (), ⟨disk.files, clock⟩) := by
  have missing : ∃ clock, missingDirectories system parent.reverse disk = (.ok [], ⟨disk.files, clock⟩) := by
    cases isReversed : parent.reverse with
    | nil => exact ⟨disk.clock, rfl⟩
    | cons name above =>
      have isParent : (name :: above).reverse = parent := by rw [← isReversed, List.reverse_reverse]
      have tested : (test system (.isDirectory parent) (fun files => isDirectory files parent) :
          Acting (Disk Name) FileError Bool) disk = (.ok true, ⟨disk.files, disk.clock + 1⟩) := by
        rw [test, works _ _ (by simp), isThere]
        rfl
      refine ⟨disk.clock + 1, ?_⟩
      rw [missingDirectories, isParent, Acting.bind_of_ok tested]
      rfl
  obtain ⟨clock, isMissing⟩ := missing
  exact ⟨clock, Acting.bind_of_ok isMissing⟩

/-- The sweep removes the file of an entry that is named like what it removes. -/
theorem prepareParent_removes (isPending : isPendingName item = true) :
    ∃ after, prepareParent (refusingSystem parent) parent ⟨singleFile (parent ++ item :: more), 0⟩ = (.ok (), after) ∧
      after.files.get? (parent ++ item :: more) = none := by
  have works := onlyCreationFails_refusingSystem parent
  have isThere := @isDirectory_singleFile parent item more
  obtain ⟨clock, isCreated⟩ := createDurableDirectories_of_isDirectory works
    (show isDirectory (Disk.files ⟨singleFile (parent ++ item :: more), 0⟩) parent = true from isThere)
  have isListed : list (refusingSystem parent) parent ⟨singleFile (parent ++ item :: more), clock⟩ =
      (.ok (children (singleFile (parent ++ item :: more)) parent), ⟨singleFile (parent ++ item :: more), clock + 1⟩) :=
    inspect_of_not_fails (works _ _ (by simp)) (if_pos isThere)
  obtain ⟨after, isSwept, -, removes⟩ := @sweep_spec _ parent works
    (children (singleFile (parent ++ item :: more)) parent) ⟨singleFile (parent ++ item :: more), clock + 1⟩
  refine ⟨after, ?_, removes item mem_children_singleFile isPending _ removable_singleFile⟩
  rw [prepareParent, Acting.bind_of_ok (Acting.mapError_eq_iff.mpr isCreated),
    Acting.bind_of_ok (Acting.mapError_eq_iff.mpr isListed)]
  exact isSwept

/-- Then the staging directory is refused, and the file is gone. -/
theorem stageBeside_refused {directory target : Path} (disk : Disk Name) :
    ∃ error, stageBeside (refusingSystem parent) directory parent target write disk =
      (.error error, ⟨disk.files, disk.clock + 1⟩) := by
  have refused : createDirectory (refusingSystem parent) (parent ++ [pendingName 0]) disk =
      (.error ⟨.other, "denied"⟩, ⟨disk.files, disk.clock + 1⟩) := by
    have fails : (refusingSystem parent).fails disk.clock (.createDirectory (parent ++ [pendingName 0])) = true :=
      decide_eq_true rfl
    rw [createDirectory, act, if_pos fails]
    rfl
  refine ⟨.ofFile ⟨.other, "denied"⟩, ?_⟩
  rw [stageBeside, Acting.bind_of_ok (Acting.get_eq_iff.mpr ⟨rfl, rfl⟩)]
  exact Acting.bind_of_error (Acting.mapError_eq_error_iff.mpr ⟨_, refused, rfl⟩)

end Swept

/-- A write that fails takes the file of such an entry with it. -/
theorem not_isAtomic_of_sweepsItself {entry : Text} (sweeps : sweepsItself entry = true) :
    ¬IsAtomic (refusingSystem (parentPath [] entry)) idlePass [] entry [] (singleFile (targetPath [] entry))
      (writePreserving (refusingSystem (parentPath [] entry)) idlePass ⟨entry, some []⟩ []
        ⟨singleFile (targetPath [] entry), 0⟩).1
      (writePreserving (refusingSystem (parentPath [] entry)) idlePass ⟨entry, some []⟩ []
        ⟨singleFile (targetPath [] entry), 0⟩).2.files := by
  rw [sweepsItself, Bool.and_eq_true, Bool.and_eq_true, decide_eq_true_eq] at sweeps
  obtain ⟨⟨isNormal, nonempty⟩, isSwept⟩ := sweeps
  obtain ⟨item, more, isTarget⟩ :=
    @exists_names_append_extension gpgExtension (by decide) (by decide) entry nonempty
  rw [PassStore.relativeTarget, PassStore.relativeParent, isTarget, List.drop_left] at isSwept
  have isBelow : targetPath [] entry = parentPath [] entry ++ item :: more := by
    rw [targetPath, PassStore.relativeTarget, isTarget, parentPath, PassStore.relativeParent, List.append_assoc]
  obtain ⟨between, isPrepared, isGone⟩ := @prepareParent_removes (parentPath [] entry) item more isSwept
  obtain ⟨error, isRefused⟩ := @stageBeside_refused
    (writeAndVerify (refusingSystem (parentPath [] entry)) idlePass []) (parentPath [] entry) [] (targetPath [] entry) between
  have ran : writePreserving (refusingSystem (parentPath [] entry)) idlePass ⟨entry, some []⟩ []
      ⟨singleFile (parentPath [] entry ++ item :: more), 0⟩ = (.error error, ⟨between.files, between.clock + 1⟩) := by
    rw [writePreserving, writePreservingWith, if_pos isNormal]
    refine (Acting.bind_of_ok rfl).trans ?_
    rw [if_neg nonempty]
    exact (Acting.bind_of_ok isPrepared).trans isRefused
  rw [isBelow, ran]
  intro isAtomic
  have same := isAtomic.failed error rfl
  rw [isBelow, isGone, get?_singleFile, if_pos rfl] at same
  cases same

/-- The write of an entry is atomic, in every tree and wherever it fails, just when the entry's own file
is not among what it sweeps. -/
theorem writePreserving_isAtomic_iff (entry : Text) :
    (∀ system pass directory secret disk, IsAtomic system pass directory entry secret disk.files
        (writePreserving system pass ⟨entry, some directory⟩ secret disk).1
        (writePreserving system pass ⟨entry, some directory⟩ secret disk).2.files) ↔
      sweepsItself entry = false := by
  constructor
  · intro isAtomic
    refine eq_false_of_ne_true fun sweeps => ?_
    exact not_isAtomic_of_sweepsItself sweeps (isAtomic _ _ [] [] ⟨singleFile (targetPath [] entry), 0⟩)
  · intro spares system pass directory secret disk
    exact writePreserving_isAtomic spares disk

/-- An entry that is named like a staging directory: `s/.tutabridge-pending-0000000000000000`. -/
def sampleEntry : Text := ['s', '/'] ++ pendingName 0

theorem sweepsItself_sampleEntry : sweepsItself sampleEntry = true := by decide

/-- Its file is gone when the staging directory cannot be made. -/
theorem not_isAtomic_sampleEntry : ¬IsAtomic (refusingSystem (parentPath [] sampleEntry)) idlePass [] sampleEntry []
      (singleFile (targetPath [] sampleEntry))
      (writePreserving (refusingSystem (parentPath [] sampleEntry)) idlePass ⟨sampleEntry, some []⟩ []
        ⟨singleFile (targetPath [] sampleEntry), 0⟩).1
      (writePreserving (refusingSystem (parentPath [] sampleEntry)) idlePass ⟨sampleEntry, some []⟩ []
        ⟨singleFile (targetPath [] sampleEntry), 0⟩).2.files :=
  not_isAtomic_of_sweepsItself sweepsItself_sampleEntry

end TutaBridge.Session.PassWrite
