import TutaBridge.Bridge.World
import TutaBridge.Mail.Rfc2822
import TutaBridge.Std.Guarded

/-!
# The backup

`export_eml` writes one file for each mail of each folder. A mail whose file is there is
skipped, which is how a run goes on where an earlier one stopped. A mail comes from the local
cache or else from the server; what can fail is told by the `Attempt`, the mailbox does not
change.
-/

namespace TutaBridge.Backup

open TutaBridge.Std Tuta Store Bridge TutaBridge.Mail

/-- `sanitize_segment`. -/
def sanitizeSegment (segment : Text) : Text :=
  let cleaned := segment.map fun char =>
    if "<>:\"/\\|?*".toList.any (· = char) ∨ char.toNat < 0x20 then '_' else char
  let strip := fun char : Char => decide (char = ' ' ∨ char = '.')
  let trimmed := (cleaned.dropWhile strip).rdropWhile strip
  if trimmed = [] then ['_'] else trimmed

/-- `date_stamp`. -/
def dateStamp (millis : Nat) : Text :=
  let secs := millis / 1000
  let timeOfDay := secs % 86400
  let (year, month, day) := daysToYmd (secs / 86400)
  Text.padded 4 year ++ Text.padded 2 month ++ Text.padded 2 day ++ '-' ::
    (Text.padded 2 (timeOfDay / 3600) ++ Text.padded 2 (timeOfDay % 3600 / 60) ++
      Text.padded 2 (timeOfDay % 60))

example : dateStamp 1735130245000 = "20241225-123725".toList := by decide

/-- The components of a path below the output directory. -/
abbrev Path := List Text

/-- `folder_output_dir`. -/
def folderOutputDir (imapPath : Text) : Path :=
  ((imapPath.splitOn '/').filter (· ≠ [])).map sanitizeSegment

/-- The path of a mail's file. -/
def mailPath (folder : FolderInfo) (mail : Mail) (elementId : String) : Path :=
  folderOutputDir folder.imapPath.toList ++
    [dateStamp mail.receivedDate ++ '_' :: (sanitizeSegment elementId.toList ++ ".eml".toList)]

/-- `as_bytes`. -/
def bytesOf (eml : String) : List UInt8 := Utf8.encode eml.toList

/-- A mailbox, as the server has it. -/
structure Mailbox where
  folders : List FolderInfo
  mails : FolderInfo → List Mail
  details : Mail → Option MailDetails
  files : Mail → List (TutanotaFile × List UInt8)

/-- A failed `write_private`: it cannot open the file, or leaves the first bytes of what was
to be written. -/
structure WriteFault where
  message : String
  leaves : Option Nat

/-- What fails while a run is at one mail. -/
structure MailFaults where
  readEml : Option StoreError
  loadMailDetails : Option String
  loadAttachments : Option String
  write : Option WriteFault

/-- One run: the cached messages by element id, the faults by how many mails were gone through,
and the fatal errors by how many folders. -/
structure Attempt where
  cache : String → Option String
  faults : Nat → MailFaults
  fatal : Nat → Option String

/-- `BackupStats`. -/
structure BackupStats where
  folders : Nat
  mailsWritten : Nat
  fromCache : Nat
  fromServer : Nat
  skipped : Nat
  bytes : Nat
  errors : List String
deriving DecidableEq, Repr

/-- A run under way, with the directory it writes to. -/
structure Export where
  files : Dict Path (List UInt8)
  stats : BackupStats
  visited : Nat
deriving DecidableEq

section Run

variable (rendering : Rendering) (mailbox : Mailbox) (attempt : Attempt)

/-- The whole message. -/
def fullRendering (mail : Mail) : String :=
  rendering.mailToRfc2822 mail (mailbox.details mail) (mailbox.files mail)

/-- The cached message, if it can be read. -/
def cachedEml (elementId : String) (visit : Nat) : Option String :=
  match (attempt.faults visit).readEml with
  | some _ => none
  | none => attempt.cache elementId

/-- `load_mail_details(mail).await.ok().flatten()`: details that cannot be loaded are none. -/
def loadedDetails (mail : Mail) (visit : Nat) : Option MailDetails :=
  match (attempt.faults visit).loadMailDetails with
  | some _ => none
  | none => mailbox.details mail

/-- The slow path: the message as rendered from what could be loaded, and the errors. -/
def fetchEml (mail : Mail) (elementId : String) (visit : Nat) : String × List String :=
  let details := loadedDetails mailbox attempt mail visit
  match (attempt.faults visit).loadAttachments with
  | some error =>
    (rendering.mailToRfc2822 mail details [], [elementId ++ ": attachments: " ++ error])
  | none => (rendering.mailToRfc2822 mail details (mailbox.files mail), [])

/-- `write_private` to a path where nothing is. -/
def writePrivate (path : Path) (contents : List UInt8) (fault : Option WriteFault)
    (files : Dict Path (List UInt8)) : Dict Path (List UInt8) :=
  match fault with
  | none => files.set path contents
  | some fault =>
    match fault.leaves with
    | none => files
    | some count => files.set path (contents.take count)

/-- The message is written, or that it was not is noted. -/
def keepEml (path : Path) (elementId eml : String) (fromCache : Bool) (state : Export) : Export :=
  let fault := (attempt.faults state.visited).write
  let files := writePrivate path (bytesOf eml) fault state.files
  match fault with
  | none =>
    { files := files
      visited := state.visited + 1
      stats := { state.stats with
        mailsWritten := state.stats.mailsWritten + 1
        bytes := state.stats.bytes + (bytesOf eml).length
        fromCache := state.stats.fromCache + if fromCache then 1 else 0
        fromServer := state.stats.fromServer + if fromCache then 0 else 1 } }
  | some fault =>
    { files := files
      visited := state.visited + 1
      stats := { state.stats with
        errors := state.stats.errors ++ [elementId ++ ": write: " ++ fault.message] } }

/-- The loop body for one mail. -/
def visit (folder : FolderInfo) (state : Export) (mail : Mail) : Export :=
  match mail.elementId with
  | none => { state with visited := state.visited + 1 }
  | some elementId =>
    let path := mailPath folder mail elementId
    if (state.files.get? path).isSome then
      { state with
        visited := state.visited + 1
        stats := { state.stats with skipped := state.stats.skipped + 1 } }
    else
      match cachedEml attempt elementId state.visited with
      | some cached => keepEml attempt path elementId cached true state
      | none =>
        let fetched := fetchEml rendering mailbox attempt mail elementId state.visited
        keepEml attempt path elementId fetched.1 false
          { state with stats := { state.stats with errors := state.stats.errors ++ fetched.2 } }

/-- The loop body for one folder. -/
def visitFolder (folder : FolderInfo) (state : Export) : Export :=
  (mailbox.mails folder).foldl (visit rendering mailbox attempt folder)
    { state with stats := { state.stats with folders := state.stats.folders + 1 } }

/-- The loop over the folders, which a fatal error ends. -/
def exportFolders : List FolderInfo → Export → Except String BackupStats × Dict Path (List UInt8)
  | [], state => (.ok state.stats, state.files)
  | folder :: rest, state =>
    match attempt.fatal state.stats.folders with
    | some error => (.error error, state.files)
    | none => exportFolders rest (visitFolder rendering mailbox attempt folder state)

/-- A run that begins. -/
def begin (files : Dict Path (List UInt8)) : Export := ⟨files, ⟨0, 0, 0, 0, 0, 0, []⟩, 0⟩

/-- `export_eml` into a directory with some files. -/
def exportEml (files : Dict Path (List UInt8)) : Except String BackupStats × Dict Path (List UInt8) :=
  exportFolders rendering mailbox attempt mailbox.folders (begin files)

end Run

end TutaBridge.Backup
