import TutaBridge.Std.FileTree
import TutaBridge.Std.UnixPaths

/-!
# Writing to the password store

`write_preserving` encrypts a session in a directory of its own beside the entry, reads it back and
puts it in the place of the entry's file. What `pass` does in the store it is given is a `Pass`; it
changes nothing outside that store. The Git metadata of a store is not part of its tree.
-/

namespace TutaBridge.Session.PassWrite

open TutaBridge.Std
open TutaBridge.Std.FileTree
open TutaBridge.Std.UnixPaths

abbrev Name : Type := Text

abbrev Path : Type := List Name

/-- Why a run ends early: with an error, or because something that is taken for granted is missing. -/
inductive Stop where
  | failed (message : String)
  | panicked
deriving DecidableEq, Repr

def Stop.ofFile (error : FileError) : Stop := .failed error.message

abbrev Run (α : Type) : Type := Acting (Disk Name) Stop α

/-! ## Names -/

/-- `.gpg`. -/
def gpgExtension : Text := ['.', 'g', 'p', 'g']

def gpgId : Name := ['.', 'g', 'p', 'g', '-', 'i', 'd']

def gpgIdSig : Name := gpgId ++ ['.', 's', 'i', 'g']

def session : Name := ['s', 'e', 's', 's', 'i', 'o', 'n']

def sessionGpg : Name := session ++ gpgExtension

/-- `.tutabridge-pending-`. -/
def pendingStart : Text := ".tutabridge-pending-".toList

def hexDigit (value : Nat) : Char := if value < 10 then Char.ofNat (48 + value) else Char.ofNat (87 + value)

/-- `{:016x}`. -/
def hex16 (value : BitVec 64) : Text :=
  (List.range 16).map fun place => hexDigit (value.toNat / 16 ^ (15 - place) % 16)

def pendingName (value : BitVec 64) : Name := pendingStart ++ hex16 value

def isAsciiHexdigit (char : Char) : Bool :=
  ('0' ≤ char && char ≤ '9') || ('a' ≤ char && char ≤ 'f') || ('A' ≤ char && char ≤ 'F')

/-- `str::strip_suffix`. -/
def stripSuffix? (ending text : Text) : Option Text :=
  if ending.isSuffixOf text then some (text.take (text.length - ending.length)) else none

/-- What stands where a staging directory has its digits, with or without the extension. -/
def pendingHex (name : Name) : Text :=
  (stripSuffix? gpgExtension (name.drop pendingStart.length)).getD (name.drop pendingStart.length)

/-- The names of what an interrupted run leaves. -/
def isPendingName (name : Name) : Bool :=
  pendingStart.isPrefixOf name && (pendingHex name).length = 16 && (pendingHex name).all isAsciiHexdigit

/-! ## The store -/

structure PassStore where
  entry : Text
  directory : Option Path

/-- `pass` on a store, given what is below its directory: what it answers, and what it leaves below
it (`none` for what it removed). -/
structure Pass where
  insertEntry : Nat → (Path → Option Item) → Text → List UInt8 → Except String Unit × List (Path × Option Item)
  showEntry : Nat → (Path → Option Item) → Text → Except String (List UInt8)

/-- What is below a directory. -/
def under (files : Files Name) (directory : Path) (path : Path) : Option Item := files.get? (directory ++ path)

/-- A change below a directory, which stays itself. -/
def applyChange (directory : Path) (files : Files Name) (change : Path × Option Item) : Files Name :=
  if change.1 = [] then files
  else
    match change.2 with
    | some item => files.set (directory ++ change.1) item
    | none => files.erase (directory ++ change.1)

section Model

variable (system : System Name) (pass : Pass)

namespace PassStore

def directoryPath (store : PassStore) : Except Stop Path :=
  match store.directory with
  | some directory => .ok directory
  | none => .error (.failed "cannot locate the password store")

/-- The file of an entry, below the directory of the store. -/
def relativeTarget (entry : Text) : Path := names (entry ++ gpgExtension)

/-- `Path::parent` of an entry. -/
def relativeParent (entry : Text) : Path := (names entry).dropLast

/-- `pass show`, for an entry whose file is there. -/
def read (store : PassStore) : Run (Option (List UInt8)) := do
  let directory ← Acting.lift store.directoryPath
  let target := directory ++ relativeTarget store.entry
  let isThere ← (inspect system (.exists target) fun files => .ok (files.get? target).isSome).mapError
    fun error => .failed ("cannot inspect pass entry: " ++ error.message)
  if isThere = false then pure none
  else do
    let disk ← Acting.get
    let output ← Acting.lift ((pass.showEntry disk.clock (under disk.files directory) store.entry).mapError .failed)
    return some output

/-- `pass insert`. -/
def write (store : PassStore) (secret : List UInt8) : Run Unit := do
  let directory ← Acting.lift store.directoryPath
  fun disk =>
    let answer := pass.insertEntry disk.clock (under disk.files directory) store.entry secret
    (answer.1.mapError .failed, ⟨answer.2.foldl (applyChange directory) disk.files, disk.clock + 1⟩)

end PassStore

/-! ## Directories -/

/-- The directories that are missing on a path, from its end; `reversed` is the path read from there. -/
def missingDirectories : (reversed : Path) → Acting (Disk Name) FileError (List Path)
  | [] => pure []
  | name :: above => do
      let current := (name :: above).reverse
      let isThere ← test system (.isDirectory current) fun files => isDirectory files current
      if isThere then pure [] else return current :: (← missingDirectories above)

/-- Create a missing directory, unless it is there by now. -/
def makeDirectory (directory : Path) : Acting (Disk Name) FileError Unit := do
  match ← (createDirectory system directory).attempt with
  | .ok () => pure ()
  | .error error =>
    if error.kind = .alreadyExists then do
      let isThere ← test system (.isDirectory directory) fun files => isDirectory files directory
      if isThere then pure () else Acting.stop error
    else Acting.stop error

/-- The loop over the missing directories. -/
def createDurableDirectory (directory : Path) : Acting (Disk Name) FileError Unit := do
  makeDirectory system directory
  openAndSync system directory
  openAndSync system directory.dropLast

/-- `create_durable_directories`. -/
def createDurableDirectories (path : Path) : Acting (Disk Name) FileError Unit := do
  let missing ← missingDirectories system path.reverse
  missing.reverse.forM (createDurableDirectory system)

/-! ## What interrupted runs left -/

/-- The loop over the names beside the entry. -/
def sweepEntry (parent : Path) (name : Name) : Run Unit := do
  (inspect system (.nextEntry (parent ++ [name])) fun _ => .ok ()).mapError .ofFile
  if isPendingName name then do
    let kind ← (inspect system (.fileType (parent ++ [name])) fun files =>
      .ok (files.get? (parent ++ [name]))).mapError .ofFile
    match kind with
    | some (.file _) => do
        let _ ← (removeFile system (parent ++ [name])).attempt
        pure ()
    | some .directory => do
        let _ ← (removeTree system (parent ++ [name])).attempt
        pure ()
    | _ => pure ()
  else pure ()

/-! ## Staging -/

/-- The loop that looks for `.gpg-id` upwards; `reversed` is the path from its end. -/
def findRecipient (directory : Path) : (reversed : Path) → Run Path
  | [] => do
      let isThere ← test system (.isFile [gpgId]) fun files => isFile files [gpgId]
      if isThere ∨ directory = [] then pure [] else Acting.stop (.failed "Missing pass recipient")
  | name :: above => do
      let recipient := (name :: above).reverse
      let isThere ← test system (.isFile (recipient ++ [gpgId])) fun files => isFile files (recipient ++ [gpgId])
      if isThere ∨ recipient = directory then pure recipient else findRecipient directory above

/-- The signature of the recipients is copied where there is one. -/
def copySignature (recipient staging : Path) : Run Unit := do
  let isSigned ← test system (.exists (recipient ++ [gpgIdSig])) fun files =>
    (files.get? (recipient ++ [gpgIdSig])).isSome
  if isSigned then (copy system (recipient ++ [gpgIdSig]) (staging ++ [gpgIdSig])).mapError .ofFile else pure ()

/-- What is done in the staging directory until the ciphertext is there, synced. -/
def stageSession (directory parent staging : Path) (write : PassStore → Run Unit) : Run Unit := do
  let recipient ← findRecipient system directory parent.reverse
  (copy system (recipient ++ [gpgId]) (staging ++ [gpgId])).mapError .ofFile
  copySignature system recipient staging
  write ⟨session, some staging⟩
  let temporary := staging ++ [sessionGpg]
  let isRegular ← (inspect system (.metadata temporary) fun files =>
    if (files.get? temporary).isSome then .ok (isFile files temporary) else .error .other).mapError .ofFile
  if isRegular then (openAndSync system temporary).mapError .ofFile
  else Acting.stop (.failed "Invalid encrypted output")

/-- The closure of `write_preserving_with`: all up to the rename, and the rename. The sync that
follows may fail, and `commit_saved_entry` reaches the Git metadata only. -/
def stageAndCommit (directory parent staging target : Path) (write : PassStore → Run Unit) : Run Unit := do
  stageSession system directory parent staging write
  (rename system (staging ++ [sessionGpg]) target).mapError .ofFile
  let _ ← (openAndSync system parent).attempt
  pure ()

/-- All that is done before the staging directory is made: the parent is made and swept. -/
def prepareParent (parent : Path) : Run Unit := do
  (createDurableDirectories system parent).mapError .ofFile
  let found ← (list system parent).mapError .ofFile
  found.forM (sweepEntry system parent)

/-- What is done with a staging directory of a name of its own, which is removed in the end. -/
def stageBeside (directory parent target : Path) (write : PassStore → Run Unit) : Run Unit := do
  let disk ← Acting.get
  let staging := parent ++ [pendingName (system.random disk.clock)]
  (createDirectory system staging).mapError .ofFile
  let result ← (stageAndCommit system directory parent staging target write).attempt
  let _ ← (removeTree system staging).attempt
  let _ ← (openAndSync system parent).attempt
  Acting.lift result

/-- `write_preserving_with`. -/
def writePreservingWith (store : PassStore) (write : PassStore → Run Unit) : Run Unit :=
  if (components store.entry).all Component.isNormal then do
    let directory ← Acting.lift store.directoryPath
    if names store.entry = [] then Acting.stop .panicked
    else do
      let parent := directory ++ PassStore.relativeParent store.entry
      prepareParent system parent
      stageBeside system directory parent (directory ++ PassStore.relativeTarget store.entry) write
  else Acting.stop (.failed "Invalid password-store entry path")

/-- The closure of `write_preserving`: write, read back and compare. -/
def writeAndVerify (secret : List UInt8) (pending : PassStore) : Run Unit := do
  pending.write pass secret
  let verified ← (pending.read system pass).mapError fun
    | .failed _ => .failed "Encrypted session could not be decrypted for verification"
    | .panicked => .panicked
  if verified = some secret then pure ()
  else Acting.stop (.failed "Encrypted session failed read-back verification")

/-- `write_preserving`. -/
def writePreserving (store : PassStore) (secret : List UInt8) : Run Unit :=
  writePreservingWith system store (writeAndVerify system pass secret)

end Model

end TutaBridge.Session.PassWrite
