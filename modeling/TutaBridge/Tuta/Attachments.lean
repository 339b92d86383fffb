import TutaBridge.Std.Asking
import TutaBridge.Std.Table
import TutaBridge.Tuta.Entities

/-!
# Attachments

`load_attachments` asks for the files of each list at once, checks the answers against the request,
finds a key for each file and downloads and decrypts its blobs. What is asked for is a `Server`,
which may answer anything and differently each time; what the SDK computes without asking is an
`Sdk`.
-/

namespace TutaBridge.Tuta.Attachments

open TutaBridge.Std

/-! ## Errors -/

/-- The refusals of `load_attachments`. -/
inductive ContractError where
  | notInMailAttachments
  | incompleteBatch
  | duplicateInBatch
  | wrongList
  | keyUnavailable
  | noBucketEntry
  | ambiguousBucketEntries
  | groupReferenceUnsupported
  | unsupportedGroupContext
deriving DecidableEq, Repr

def ContractError.message : ContractError → String
  | notInMailAttachments => "a loaded File is not one of the mail's attachments"
  | incompleteBatch => "the server did not return every requested File"
  | duplicateInBatch => "a File was returned or referenced twice"
  | wrongList => "the server returned a File from another list"
  | keyUnavailable => "the File has no key of its own and the mail carries no bucket"
  | noBucketEntry => "the mail's bucket has no entry for the File"
  | ambiguousBucketEntries => "the mail's bucket has more than one entry for the File"
  | groupReferenceUnsupported => "the mail's bucket uses a group reference, which is not supported"
  | unsupportedGroupContext =>
    "the File and the mail belong to different groups; the bucket path supports one"

inductive BucketKeyError where
  | noEntry
  | ambiguousEntries
  | groupReferenceUnsupported
  | resolution (message : String)
deriving DecidableEq, Repr

/-- Why a run ends early: with an error, or because something that is taken for granted is missing. -/
inductive Halt where
  | failed (error : AttachmentError)
  | panicked
deriving DecidableEq, Repr

def classify : ApiCallError → Halt
  | .internalSdkError message => .failed (.indeterminate (.internalSdkError message))
  | error => .failed (.transport error)

def contract (error : ContractError) : Halt := .failed (.contract error.message)

def indeterminate (message : String) : Halt := .failed (.indeterminate (.internalSdkError message))

def classifyBucket : BucketKeyError → Halt
  | .noEntry => contract .noBucketEntry
  | .ambiguousEntries => contract .ambiguousBucketEntries
  | .groupReferenceUnsupported => contract .groupReferenceUnsupported
  | .resolution message => indeterminate message

/-! ## What is loaded -/

structure FileBlob where
  archiveId : String
  blobId : String
deriving DecidableEq, Repr

/-- A decrypted `TutanotaFile`. -/
structure File where
  id : Option IdTuple
  metadata : TutanotaFile
  blobs : List FileBlob
  errors : List String
  ownerKeyVersion : Option Int
  ownerEncSessionKey : Option (List UInt8)
deriving DecidableEq, Repr

structure ResolvedSessionKey (κ : Type) where
  sessionKey : κ
  ownerEncSessionKey : List UInt8
  ownerKeyVersion : Nat
deriving DecidableEq, Repr

/-- What `load_attachments` reads of a mail. -/
structure AttachedMail (β : Type) where
  attachments : List IdTuple
  bucketKey : Option β
  ownerGroup : Option String
deriving DecidableEq, Repr

section Model

variable (π κ δ β : Type)

/-- What the SDK computes: of a loaded file as it came, of a decrypted one, and with a key. -/
structure Sdk where
  resolveServerTypeRef : Except ApiCallError Unit
  listElementId : π → Option IdTuple
  hasOwnerEncSessionKey : π → Bool
  ownerGroup : π → Option String
  parseEntity : δ → Except String File
  decryptData : κ → List UInt8 → Except String (List UInt8)

/-- What was asked, with the answer. -/
inductive Exchange where
  | loadMultiple (list : String) (elements : List String) (answer : Except ApiCallError (List π))
  | resolveSessionKey (parsed : π) (answer : Except String (Option (ResolvedSessionKey κ)))
  | resolveBucketInstanceKeys (bucket : β) (group : String) (ids : List IdTuple)
      (answer : Except BucketKeyError (List (ResolvedSessionKey κ)))
  | decryptParsed (parsed : π) (key : ResolvedSessionKey κ) (answer : Except ApiCallError δ)
  | downloadBlobs (archive : String) (owner : IdTuple) (ids : List String)
      (answer : Except ApiCallError (List (String × List UInt8)))

/-- What is answered, after all that was asked before. Also the order in which a hash map of
archives is gone through. -/
structure Server where
  loadMultiple : List (Exchange π κ δ β) → String → List String → Except ApiCallError (List π)
  resolveSessionKey : List (Exchange π κ δ β) → π → Except String (Option (ResolvedSessionKey κ))
  resolveBucketInstanceKeys : List (Exchange π κ δ β) → β → String → List IdTuple →
    Except BucketKeyError (List (ResolvedSessionKey κ))
  decryptParsed : List (Exchange π κ δ β) → π → ResolvedSessionKey κ → Except ApiCallError δ
  downloadBlobs : List (Exchange π κ δ β) → String → IdTuple → List String →
    Except ApiCallError (List (String × List UInt8))
  archiveOrder : List (String × List String) → List (String × List String)
  archiveOrder_perm : ∀ archives, (archiveOrder archives).Perm archives

variable {π κ δ β} (sdk : Sdk π κ δ) (server : Server π κ δ β)

/-! ## The blobs of a file -/

/-- The loop over the blobs of an answer. -/
def addChunk (key : κ) (archive : String) (chunks : Dict (String × String) (List UInt8))
    (blob : String × List UInt8) : Except ApiCallError (Dict (String × String) (List UInt8)) :=
  match sdk.decryptData key blob.2 with
  | .ok data => .ok (chunks.set (archive, blob.1) data)
  | .error reason =>
    .error (.internalSdkError ("Cannot decrypt attachment blob " ++ blob.1 ++ ": " ++ reason))

/-- The loop over the archives. -/
def downloadArchives (key : κ) (owner : IdTuple) :
    Dict (String × String) (List UInt8) → List (String × List String) →
      Asking (Exchange π κ δ β) ApiCallError (Dict (String × String) (List UInt8))
  | chunks, [] => pure chunks
  | chunks, (archive, ids) :: rest => do
      let answer ← Asking.ask (fun asked => server.downloadBlobs asked archive owner ids)
        (.downloadBlobs archive owner ids)
      let encrypted ← Acting.lift answer
      let more ← Acting.lift (encrypted.foldlM (addChunk sdk key archive) chunks)
      downloadArchives key owner more rest

/-- The data of a blob. -/
def chunkOf (chunks : Dict (String × String) (List UInt8)) (blob : FileBlob) :
    Except ApiCallError (List UInt8) :=
  match chunks.get? (blob.archiveId, blob.blobId) with
  | some data => .ok data
  | none =>
    .error (.internalSdkError
      ("Server did not return blob " ++ blob.blobId ++ " of archive " ++ blob.archiveId))

/-- `load_file_attachment_data`. -/
def loadFileAttachmentData (file : File) (key : κ) : Asking (Exchange π κ δ β) ApiCallError (List UInt8) :=
  if file.blobs = [] then pure []
  else do
    let owner ← Acting.lift (match file.id with
      | some owner => .ok owner
      | none => .error (.internalSdkError "File has no ID"))
    let archives := Dict.groupInto FileBlob.archiveId FileBlob.blobId Table.empty file.blobs
    let chunks ← downloadArchives sdk server key owner Table.empty (server.archiveOrder archives.rows)
    let parts ← Acting.lift (file.blobs.mapM (chunkOf chunks))
    return parts.flatten

/-! ## The files -/

/-- An attachment goes to the others of its list. -/
def addReference : List (String × List String) → IdTuple → Except Halt (List (String × List String))
  | [], id => .ok [(id.listId, [id.elementId])]
  | (list, elements) :: rest, id =>
    if list = id.listId then
      if id.elementId ∈ elements then .error (contract .duplicateInBatch)
      else .ok ((list, elements ++ [id.elementId]) :: rest)
    else (addReference rest id).map ((list, elements) :: ·)

/-- The loop over the files of an answer. The id of a file is what it is kept by. -/
def addParsed (list : String) (elements : List String) (files : Dict IdTuple π) (parsed : π) :
    Except Halt (Dict IdTuple π) :=
  match sdk.listElementId parsed with
  | none => .error (indeterminate "a loaded File has no id")
  | some id =>
    if id.listId ≠ list then .error (contract .wrongList)
    else if id.elementId ∉ elements then .error (contract .notInMailAttachments)
    else if (files.get? id).isSome then .error (contract .duplicateInBatch)
    else .ok (files.set id parsed)

/-- The loop over the lists. -/
def loadLists : Dict IdTuple π → List (String × List String) → Asking (Exchange π κ δ β) Halt (Dict IdTuple π)
  | files, [] => pure files
  | files, (list, elements) :: rest => do
      let answer ← Asking.ask (fun asked => server.loadMultiple asked list elements)
        (.loadMultiple list elements)
      let loaded ← Acting.lift (answer.mapError classify)
      let more ← Acting.lift (loaded.foldlM (addParsed sdk list elements) files)
      loadLists more rest

/-! ## The keys -/

/-- `&parsed_files[&pair(id)]`, or an `expect` of what was loaded. -/
def present {α : Type} (held : Option α) : Asking (Exchange π κ δ β) Halt α :=
  Acting.lift (match held with
    | some item => .ok item
    | none => .error .panicked)

/-- The loop over the attachments for the keys of their own, and those left to the bucket. -/
def ownKeys (files : Dict IdTuple π) : Dict IdTuple (ResolvedSessionKey κ) → List IdTuple → List IdTuple →
      Asking (Exchange π κ δ β) Halt (Dict IdTuple (ResolvedSessionKey κ) × List IdTuple)
  | keys, fromBucket, [] => pure (keys, fromBucket)
  | keys, fromBucket, id :: rest => do
      let parsed ← present (files.get? id)
      if sdk.hasOwnerEncSessionKey parsed then do
        let answer ← Asking.ask (fun asked => server.resolveSessionKey asked parsed)
          (.resolveSessionKey parsed)
        let resolved ← Acting.lift (answer.mapError fun reason => indeterminate ("File session key: " ++ reason))
        let key ← Acting.lift (match resolved with
          | some key => .ok key
          | none => .error (indeterminate "File is encrypted but resolved no key"))
        ownKeys files (keys.set id key) fromBucket rest
      else ownKeys files keys (fromBucket ++ [id]) rest

/-- `keys.extend(…)`. -/
def extendKeys (keys : Dict IdTuple (ResolvedSessionKey κ))
    (resolved : List (IdTuple × ResolvedSessionKey κ)) : Dict IdTuple (ResolvedSessionKey κ) :=
  resolved.foldl (fun keys entry => keys.set entry.1 entry.2) keys

/-- Whether one of the files belongs to another group. -/
def anyOtherGroup (files : Dict IdTuple π) (group : String) :
    List IdTuple → Asking (Exchange π κ δ β) Halt Bool
  | [] => pure false
  | id :: rest => do
      let parsed ← present (files.get? id)
      if sdk.ownerGroup parsed ≠ some group then pure true else anyOtherGroup files group rest

/-- The keys of the bucket, in one call. -/
def bucketKeys (mail : AttachedMail β) (files : Dict IdTuple π) (keys : Dict IdTuple (ResolvedSessionKey κ))
    (fromBucket : List IdTuple) : Asking (Exchange π κ δ β) Halt (Dict IdTuple (ResolvedSessionKey κ)) :=
  if fromBucket = [] then pure keys
  else do
    let bucket ← Acting.lift (match mail.bucketKey with
      | some bucket => .ok bucket
      | none => .error (contract .keyUnavailable))
    let group ← Acting.lift (match mail.ownerGroup with
      | some group => .ok group
      | none => .error (indeterminate "Mail missing _ownerGroup"))
    let isOther ← anyOtherGroup sdk files group fromBucket
    if isOther then Acting.stop (contract .unsupportedGroupContext)
    else do
      let answer ← Asking.ask (fun asked => server.resolveBucketInstanceKeys asked bucket group fromBucket)
        (.resolveBucketInstanceKeys bucket group fromBucket)
      let resolved ← Acting.lift (answer.mapError classifyBucket)
      return extendKeys keys (fromBucket.zip resolved)

/-! ## All attachments -/

/-- A file keeps the envelope of its key. -/
def withEnvelope (file : File) (key : ResolvedSessionKey κ) : Except Halt File :=
  if key.ownerKeyVersion < 2 ^ 63 then
    .ok { file with
      ownerKeyVersion := some key.ownerKeyVersion
      ownerEncSessionKey := some key.ownerEncSessionKey }
  else .error (indeterminate "File key version is out of range")

/-- A decrypted entity as a file. -/
def mapFile (decrypted : δ) : Except Halt File :=
  match sdk.parseEntity decrypted with
  | .error reason => .error (indeterminate ("Failed to map File: " ++ reason))
  | .ok file => if file.errors = [] then .ok file else .error (indeterminate "File metadata did not decrypt")

/-- The loop over the attachments that decrypts and downloads. -/
def loadEach : Dict IdTuple π → Dict IdTuple (ResolvedSessionKey κ) → List IdTuple →
    Asking (Exchange π κ δ β) Halt (List (File × List UInt8))
  | _, _, [] => pure []
  | files, keys, id :: rest => do
      let parsed ← present (files.get? id)
      let key ← present (keys.get? id)
      let answer ← Asking.ask (fun asked => server.decryptParsed asked parsed key) (.decryptParsed parsed key)
      let decrypted ← Acting.lift (answer.mapError classify)
      let mapped ← Acting.lift (mapFile sdk decrypted)
      let file ← Acting.lift (withEnvelope mapped key)
      let data ← (loadFileAttachmentData sdk server file key.sessionKey).mapError classify
      let others ← loadEach (files.erase id) (keys.erase id) rest
      return (file, data) :: others

/-- `load_attachments`. -/
def loadAttachments (mail : AttachedMail β) : Asking (Exchange π κ δ β) Halt (List (File × List UInt8)) :=
  if mail.attachments = [] then pure []
  else do
    Acting.lift (sdk.resolveServerTypeRef.mapError fun error => Halt.failed (.indeterminate error))
    let lists ← Acting.lift (mail.attachments.foldlM addReference [])
    let files ← loadLists sdk server Table.empty lists
    if mail.attachments.any fun id => (files.get? id).isNone then Acting.stop (contract .incompleteBatch)
    else do
      let own ← ownKeys sdk server files Table.empty [] mail.attachments
      let keys ← bucketKeys sdk server mail files own.1 own.2
      loadEach sdk server files keys mail.attachments

end Model

end TutaBridge.Tuta.Attachments
