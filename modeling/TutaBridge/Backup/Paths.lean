import TutaBridge.Backup.Resume
import TutaBridge.Mail.Rendering
import TutaBridge.Std.UnixPaths

/-!
# The paths of a backup

What a run creates and writes is named by texts that others choose: the paths of the folders and
the ids of the mails. Each segment of a folder's path, and the id, is sanitised before it is put
behind the output directory, so a run stays below it. Folders can come to share a directory; the
id keeps the files in it apart.
-/

namespace TutaBridge.Backup

open TutaBridge.Std TutaBridge.Std.Text TutaBridge.Std.UnixPaths Tuta Store
  TutaBridge.Bridge TutaBridge.Mail TutaBridge.Events

variable {folder : FolderInfo}

/-! ## Paths as text -/

/-- `folder_output_dir`. -/
def folderDir (base imapPath : Text) : Text :=
  ((imapPath.splitOn '/').filter (· ≠ [])).foldl (fun path segment => push path (sanitizeSegment segment)) base

/-- The file name of a mail. -/
def fileName (mail : Mail) (elementId : String) : Text :=
  dateStamp mail.receivedDate ++ '_' :: (sanitizeSegment elementId.toList ++ ".eml".toList)

/-- The path of a mail's file. -/
def mailFile (base : Text) (folder : FolderInfo) (mail : Mail) (elementId : String) : Text :=
  push (folderDir base folder.imapPath.toList) (fileName mail elementId)

/-- The directory of a folder is named by its components. -/
theorem folderDir_eq (base imapPath : Text) :
    folderDir base imapPath = (folderOutputDir imapPath).foldl push base := by
  rw [folderDir, folderOutputDir, List.foldl_map]

theorem mailPath_eq (folder : FolderInfo) (mail : Mail) (elementId : String) :
    mailPath folder mail elementId = folderOutputDir folder.imapPath.toList ++ [fileName mail elementId] := by
  rw [mailPath, fileName]

theorem mailFile_eq (base : Text) (folder : FolderInfo) (mail : Mail) (elementId : String) :
    mailFile base folder mail elementId = (mailPath folder mail elementId).foldl push base := by
  rw [mailFile, folderDir_eq, mailPath_eq, List.foldl_append, List.foldl_cons, List.foldl_nil]

/-! ## The calls of a run -/

/-- A call that creates or writes. -/
inductive Call where
  | createDir (path : Text)
  | writeFile (path : Text)
deriving DecidableEq, Repr

def Call.path : Call → Text
  | .createDir path | .writeFile path => path

@[simp] theorem Call.path_createDir (path : Text) : (Call.createDir path).path = path := rfl

@[simp] theorem Call.path_writeFile (path : Text) : (Call.writeFile path).path = path := rfl

section Calls

variable (rendering : Rendering) (mailbox : Mailbox) (attempt : Attempt) (base : Text)

/-- The calls of the loop body for one mail. -/
def visitCalls (folder : FolderInfo) (state : Export) (mail : Mail) : List Call :=
  match mail.elementId with
  | none => []
  | some elementId =>
    if (state.files.get? (mailPath folder mail elementId)).isSome then []
    else [.writeFile (mailFile base folder mail elementId)]

/-- The calls of the loop over the mails of a folder. -/
def mailCalls (folder : FolderInfo) : List Mail → Export → List Call
  | [], _ => []
  | mail :: rest, state =>
    visitCalls base folder state mail ++
      mailCalls folder rest (visit rendering mailbox attempt folder state mail)

/-- The calls of the loop over the folders. -/
def folderCalls : List FolderInfo → Export → List Call
  | [], _ => []
  | folder :: rest, state =>
    .createDir (folderDir base folder.imapPath.toList) ::
      match attempt.fatal state.stats.folders with
      | some _ => []
      | none =>
        mailCalls rendering mailbox attempt base folder (mailbox.mails folder)
            { state with stats := { state.stats with folders := state.stats.folders + 1 } } ++
          folderCalls rest (visitFolder rendering mailbox attempt folder state)

/-- The calls of `export_eml`. -/
def exportCalls (files : Dict Path (List UInt8)) : List Call :=
  .createDir base :: folderCalls rendering mailbox attempt base mailbox.folders (begin files)

end Calls

/-! ## Names that are safe -/

/-- A name that is one component of a path, wherever it is put. -/
structure SafeName (name : Text) : Prop where
  notEmpty : name ≠ []
  notCurrent : name ≠ ['.']
  notParent : name ≠ ['.', '.']
  plain : ∀ char ∈ name, char ≠ '/' ∧ char ≠ '\\' ∧ 0x20 ≤ char.toNat

/-- A path below a directory, by names that are safe. -/
def Confined (base path : Text) : Prop :=
  ∃ names : List Text, path = names.foldl push base ∧
    components path = components base ++ names.map .normal ∧ ∀ name ∈ names, SafeName name

theorem SafeName.isName {name : Text} (safe : SafeName name) : IsName name where
  noSlash mem := (safe.plain '/' mem).1 rfl
  isNormal := by
    rw [Component.ofSegment?, if_neg (not_or.mpr ⟨safe.notEmpty, safe.notCurrent⟩), if_neg safe.notParent]

/-- A text whose last character is no dot is neither of the two names that are dots. -/
theorem SafeName.of_last {name : Text} (notEmpty : name ≠ []) (noDot : name.getLast notEmpty ≠ '.')
    (plain : ∀ char ∈ name, char ≠ '/' ∧ char ≠ '\\' ∧ 0x20 ≤ char.toNat) : SafeName name := by
  refine ⟨notEmpty, ?_, ?_, plain⟩ <;> (rintro rfl; exact noDot rfl)

/-- What a segment is trimmed to is empty or ends in no dot. -/
theorem safe_sanitizeSegment (segment : Text) : SafeName (sanitizeSegment segment) := by
  unfold sanitizeSegment
  dsimp only
  have cleaned : ∀ char ∈ segment.map fun char =>
      if "<>:\"/\\|?*".toList.any (· = char) ∨ char.toNat < 0x20 then '_' else char,
      char ≠ '/' ∧ char ≠ '\\' ∧ 0x20 ≤ char.toNat := by
    intro char mem
    obtain ⟨source, -, rfl⟩ := List.mem_map.mp mem
    split
    next => decide
    next kept =>
      obtain ⟨allowed, visible⟩ := not_or.mp kept
      refine ⟨?_, ?_, by omega⟩ <;> (rintro rfl; exact allowed (by decide))
  split
  next => exact ⟨by decide, by decide, by decide, by decide⟩
  next notEmpty =>
    refine .of_last notEmpty ?_ fun char mem => cleaned char ?_
    · intro isDot
      have lastStays := List.rdropWhile_last_not _ _ notEmpty
      exact lastStays (decide_eq_true (.inr isDot))
    · exact (List.dropWhile_suffix _).subset ((List.rdropWhile_prefix _ _).subset mem)

theorem mem_dateStamp {millis : Nat} {char : Char} (mem : char ∈ dateStamp millis) :
    char = '-' ∨ char.isDigit = true := by
  simp only [dateStamp, List.mem_append, List.mem_cons] at mem
  rcases mem with ((year | month) | day) | dash | (hour | minute) | second
  · exact .inr (mem_padded year)
  · exact .inr (mem_padded month)
  · exact .inr (mem_padded day)
  · exact .inl dash
  · exact .inr (mem_padded hour)
  · exact .inr (mem_padded minute)
  · exact .inr (mem_padded second)

theorem safe_fileName (mail : Mail) (elementId : String) : SafeName (fileName mail elementId) := by
  have notEmpty : fileName mail elementId ≠ [] := List.append_ne_nil_of_right_ne_nil _ (List.cons_ne_nil _ _)
  have isLast : (fileName mail elementId).getLast? = some 'l' := by
    rw [fileName, ← List.cons_append, ← List.append_assoc, List.getLast?_append_of_ne_nil _ (by decide)]
    decide
  refine .of_last notEmpty ?_ fun char mem => ?_
  · intro isDot
    rw [List.getLast?_eq_some_getLast notEmpty, isDot] at isLast
    exact absurd isLast (by decide)
  · rcases List.mem_append.mp mem with inStamp | later
    · rcases mem_dateStamp inStamp with rfl | digit
      · decide
      · have range := toNat_of_isDigit digit
        refine ⟨?_, ?_, by omega⟩ <;> (rintro rfl; exact absurd digit (by decide))
    · rcases List.mem_cons.mp later with rfl | behind
      · decide
      · rcases List.mem_append.mp behind with inId | inExtension
        · exact (safe_sanitizeSegment _).plain char inId
        · have table : ∀ char ∈ ".eml".toList, char ≠ '/' ∧ char ≠ '\\' ∧ 0x20 ≤ char.toNat := by decide
          exact table char inExtension

theorem safe_folderOutputDir {imapPath name : Text} (mem : name ∈ folderOutputDir imapPath) : SafeName name := by
  obtain ⟨segment, -, rfl⟩ := List.mem_map.mp mem
  exact safe_sanitizeSegment segment

theorem safe_mailPath {mail : Mail} {elementId : String} {name : Text}
    (mem : name ∈ mailPath folder mail elementId) : SafeName name := by
  rcases List.mem_append.mp mem with inDir | isFile
  · exact safe_folderOutputDir inDir
  · rw [List.mem_singleton.mp isFile]
    exact safe_fileName mail elementId

/-- Safe names stay below the directory they are put behind. -/
theorem confined_foldl {names : List Text} (safe : ∀ name ∈ names, SafeName name) (base : Text) :
    Confined base (names.foldl push base) :=
  ⟨names, rfl, components_foldl_push (fun name mem => (safe name mem).isName) base, safe⟩

theorem confined_folderDir (base imapPath : Text) : Confined base (folderDir base imapPath) := by
  rw [folderDir_eq]
  exact confined_foldl (fun _ => safe_folderOutputDir) base

theorem confined_mailFile (base : Text) (folder : FolderInfo) (mail : Mail) (elementId : String) :
    Confined base (mailFile base folder mail elementId) := by
  have safe : ∀ name ∈ mailPath folder mail elementId, SafeName name := fun _ mem => safe_mailPath mem
  have confined := confined_foldl safe base
  rw [← mailFile_eq] at confined
  exact confined

section Confinement

variable {rendering : Rendering} {mailbox : Mailbox} {attempt : Attempt} {base : Text} {call : Call}

theorem confined_visitCalls {state : Export} {mail : Mail}
    (mem : call ∈ visitCalls base folder state mail) : Confined base call.path := by
  unfold visitCalls at mem
  cases identified : mail.elementId with
  | none =>
    rw [identified] at mem
    cases mem
  | some elementId =>
    rw [identified] at mem
    dsimp only at mem
    split at mem
    next => cases mem
    next =>
      rw [List.mem_singleton.mp mem, Call.path_writeFile]
      exact confined_mailFile base folder mail elementId

theorem confined_mailCalls {mails : List Mail} {state : Export}
    (mem : call ∈ mailCalls rendering mailbox attempt base folder mails state) : Confined base call.path := by
  induction mails generalizing state with
  | nil => cases mem
  | cons mail rest ih =>
    rcases List.mem_append.mp mem with now | later
    · exact confined_visitCalls now
    · exact ih later

theorem confined_folderCalls {folders : List FolderInfo} {state : Export}
    (mem : call ∈ folderCalls rendering mailbox attempt base folders state) : Confined base call.path := by
  induction folders generalizing state with
  | nil => cases mem
  | cons folder rest ih =>
    rw [folderCalls] at mem
    rcases List.mem_cons.mp mem with rfl | later
    · rw [Call.path_createDir]
      exact confined_folderDir base folder.imapPath.toList
    · cases fatal : attempt.fatal state.stats.folders with
      | some error =>
        rw [fatal] at later
        cases later
      | none =>
        rw [fatal] at later
        rcases List.mem_append.mp later with now | behind
        · exact confined_mailCalls now
        · exact ih behind

/-- Every path that a run creates or writes is below the output directory. -/
theorem confined_exportCalls {files : Dict Path (List UInt8)}
    (mem : call ∈ exportCalls rendering mailbox attempt base files) : Confined base call.path := by
  rcases List.mem_cons.mp mem with rfl | later
  · rw [Call.path_createDir]
    exact confined_foldl (fun _ isName => absurd isName List.not_mem_nil) base
  · exact confined_folderCalls later

end Confinement

/-! ## Files that are kept apart -/

/-- Nothing of an id is replaced or trimmed; an id that is empty becomes an underscore. -/
theorem sanitizeSegment_tutaId {id : String} (isId : isTutaId id = true) :
    sanitizeSegment id.toList = if id.toList = [] then ['_'] else id.toList := by
  have plain : ∀ char ∈ MailSetEntryId.base64Ext,
      ¬("<>:\"/\\|?*".toList.any (· = char) ∨ char.toNat < 0x20) ∧ ¬(char = ' ' ∨ char = '.') := by decide
  have inAlphabet : ∀ char ∈ id.toList, char ∈ MailSetEntryId.base64Ext := by
    intro char mem
    simpa using List.all_eq_true.mp isId char mem
  have cleaned : (id.toList.map fun char =>
      if "<>:\"/\\|?*".toList.any (· = char) ∨ char.toNat < 0x20 then '_' else char) = id.toList := by
    refine (List.map_congr_left fun char mem => ?_).trans (List.map_id _)
    exact if_neg (plain char (inAlphabet char mem)).1
  have stays : ∀ char ∈ id.toList, decide (char = ' ' ∨ char = '.') = false := by
    intro char mem
    exact decide_eq_false (plain char (inAlphabet char mem)).2
  have front : id.toList.dropWhile (fun char => decide (char = ' ' ∨ char = '.')) = id.toList :=
    List.dropWhile_eq_self_iff.mpr fun some => by
      rw [stays _ (List.getElem_mem some)]
      decide
  have back : id.toList.rdropWhile (fun char => decide (char = ' ' ∨ char = '.')) = id.toList :=
    List.rdropWhile_eq_self_iff.mpr fun some => by
      rw [stays _ (List.getLast_mem some)]
      decide
  unfold sanitizeSegment
  dsimp only
  rw [cleaned, front, back]

/-- Two ids that are the same once sanitised are the same, or one is empty and the other an
underscore. -/
theorem eq_of_sanitizeSegment {id id' : String} (isId : isTutaId id = true) (isId' : isTutaId id' = true)
    (same : sanitizeSegment id.toList = sanitizeSegment id'.toList) :
    id = id' ∨ id = "" ∧ id' = "_" ∨ id = "_" ∧ id' = "" := by
  have ofList : ∀ {first second : String}, first.toList = second.toList → first = second :=
    fun {_ _} => String.toList_inj.mp
  rw [sanitizeSegment_tutaId isId, sanitizeSegment_tutaId isId'] at same
  split at same
  next isEmpty =>
    split at same
    next isEmpty' => exact .inl (ofList (isEmpty.trans isEmpty'.symm))
    next => exact .inr (.inl ⟨ofList isEmpty, ofList same.symm⟩)
  next =>
    split at same
    next isEmpty' => exact .inr (.inr ⟨ofList same, ofList isEmpty'⟩)
    next => exact .inl (ofList same)

theorem eq_of_marked {mark : Char} {stamp stamp' id id' extension : Text} (noMark : mark ∉ stamp)
    (noMark' : mark ∉ stamp')
    (same : stamp ++ mark :: (id ++ extension) = stamp' ++ mark :: (id' ++ extension)) : id = id' := by
  have cut := congrArg (splitOnce mark) same
  rw [splitOnce_append noMark, splitOnce_append noMark'] at cut
  exact List.append_cancel_right (Prod.ext_iff.mp (Option.some.inj cut)).2

/-- The stamp ends at the first underscore. -/
theorem sanitizeSegment_of_fileName {mail mail' : Mail} {id id' : String}
    (same : fileName mail id = fileName mail' id') : sanitizeSegment id.toList = sanitizeSegment id'.toList := by
  have noMark : ∀ millis, '_' ∉ dateStamp millis := by
    intro millis mem
    exact absurd (mem_dateStamp mem) (by decide)
  exact eq_of_marked (noMark mail.receivedDate) (noMark mail'.receivedDate) same

theorem fileName_of_mailFile {base : Text} {folder' : FolderInfo} {mail mail' : Mail}
    {id id' : String} (same : mailFile base folder mail id = mailFile base folder' mail' id') :
    fileName mail id = fileName mail' id' := by
  rw [mailFile_eq, mailFile_eq] at same
  have paths := foldl_push_inj (fun name mem => (safe_mailPath mem).isName)
    (fun name mem => (safe_mailPath mem).isName) same
  have lasts := congrArg List.getLast? paths
  rw [mailPath_eq, mailPath_eq, List.getLast?_concat, List.getLast?_concat] at lasts
  exact Option.some.inj lasts

/-- The paths of a run are below the output directory, and two mails whose ids differ get
different files, unless one id is empty and the other an underscore. -/
theorem export_paths_confined_and_apart (rendering : Rendering) (mailbox : Mailbox) (attempt : Attempt)
    (files : Dict Path (List UInt8)) (base : Text) :
    (∀ call ∈ exportCalls rendering mailbox attempt base files, Confined base call.path) ∧
    ∀ (folder folder' : FolderInfo) (mail mail' : Mail) (id id' : String), mail.elementId = some id →
      mail'.elementId = some id' → isTutaId id = true → isTutaId id' = true → id ≠ id' →
      ¬(id = "" ∧ id' = "_" ∨ id = "_" ∧ id' = "") →
      mailFile base folder mail id ≠ mailFile base folder' mail' id' := by
  refine ⟨fun call mem => confined_exportCalls mem, ?_⟩
  intro folder folder' mail mail' id id' _ _ isId isId' different notEmpty same
  have sanitized := sanitizeSegment_of_fileName (fileName_of_mailFile same)
  rcases eq_of_sanitizeSegment isId isId' sanitized with equal | collide
  · exact different equal
  · exact notEmpty collide

/-- The paths of a run over one mail, and the path of another mail. -/
theorem oneMail_paths :
    let base := "backup".toList
    let folder := sampleFolder "INBOX" "entries"
    let calls := exportCalls plainRendering oneMail (faulty ⟨none, none, none, none⟩) base .empty
    calls = [.createDir base, .createDir "backup/INBOX".toList,
        .writeFile "backup/INBOX/20241225-123725_m.eml".toList] ∧
      (∀ call ∈ calls, Confined base call.path) ∧
      mailFile base folder (sampleMail "m") "m" ≠ mailFile base folder (sampleMail "n") "n" := by
  intro base folder calls
  have paths := export_paths_confined_and_apart plainRendering oneMail (faulty ⟨none, none, none, none⟩)
    .empty base
  refine ⟨by decide +kernel, paths.1, ?_⟩
  exact paths.2 folder folder (sampleMail "m") (sampleMail "n") "m" "n" rfl rfl (by decide) (by decide)
    (by decide) (by decide)

/-- An empty id is written as an underscore, which is an id too. -/
theorem empty_id_collides : ¬ ∀ (base : Text) (folder folder' : FolderInfo) (mail mail' : Mail) (id id' : String),
        mail.elementId = some id → mail'.elementId = some id' → isTutaId id = true → isTutaId id' = true →
        id ≠ id' → mailFile base folder mail id ≠ mailFile base folder' mail' id' := by
  intro claim
  refine claim "backup".toList (sampleFolder "INBOX" "entries") (sampleFolder "INBOX" "entries")
    (sampleMail "") (sampleMail "_") "" "_" rfl rfl (by decide) (by decide) (by decide) ?_
  decide +kernel

end TutaBridge.Backup
