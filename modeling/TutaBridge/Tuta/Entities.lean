import Mathlib.Data.List.Basic

/-!
# The entities the bridge handles

The fields of Tuta's mail entities that the bridge reads, the folder record it
derives from a `MailSet`, and the decoded messages of the event bus.
-/

namespace TutaBridge.Tuta

/-- `IdTupleGenerated`: the list an entity lives in and its element id. -/
structure IdTuple where
  listId : String
  elementId : String
deriving DecidableEq, Repr

structure MailAddress where
  name : String
  address : String
deriving DecidableEq, Repr

/-- A `Mail` entity. `id` is `_id`, which the SDK leaves unset on an entity it
has not loaded; `receivedDate` counts milliseconds. A draft refers to its details by
another field than a mail that was sent or received. -/
structure Mail where
  id : Option IdTuple
  subject : String
  sender : MailAddress
  receivedDate : Nat
  unread : Bool
  attachments : List IdTuple
  mailDetails : Option IdTuple := none
  mailDetailsDraft : Option IdTuple := none
  firstRecipient : Option MailAddress := none
deriving DecidableEq, Repr

/-- `mail._id.as_ref().map(|id| id.element_id.to_string())`. -/
def Mail.elementId (mail : Mail) : Option String := mail.id.map IdTuple.elementId

/-- The entities a message is rendered from besides the mail: its details and its
attachments. -/
def Mail.references (mail : Mail) : Option IdTuple × Option IdTuple × List IdTuple :=
  (mail.mailDetails, mail.mailDetailsDraft, mail.attachments)

/-- The HTML body of a mail, in one of two fields. -/
structure Body where
  text : Option String
  compressedText : Option String
deriving DecidableEq, Repr

/-- The recipients of a mail, by the header they are written to. -/
structure Recipients where
  toRecipients : List MailAddress := []
  ccRecipients : List MailAddress := []
  bccRecipients : List MailAddress := []
deriving DecidableEq, Repr

structure MailDetails where
  body : Body
  recipients : Recipients := {}
  replyTos : List MailAddress := []
deriving DecidableEq, Repr

/-- `details.body.compressedText.or(details.body.text).unwrap_or("")`. -/
def MailDetails.bodyHtml (details : MailDetails) : String :=
  (details.body.compressedText.or details.body.text).getD ""

/-- Metadata of an attachment. -/
structure TutanotaFile where
  name : String
  mimeType : Option String
  cid : Option String
deriving DecidableEq, Repr

/-- The placement of a mail in a folder, of which the bridge reads the mail. -/
structure MailSetEntry where
  mail : IdTuple
deriving DecidableEq, Repr

/-- Why the SDK's REST layer failed, as far as the bridge tells failures apart. -/
inductive HttpError where
  | connectionError
  | requestTimeoutError
  | tooManyRequestsError
  | internalServerError
  | badGatewayError
  | serviceUnavailableError
  | other (name : String)
deriving DecidableEq, Repr

inductive ApiCallError where
  | restClient
  | serverResponseError (source : HttpError)
  | internalSdkError (message : String)
deriving DecidableEq, Repr

/-- Why a mail's attachments could not be loaded. -/
inductive AttachmentError where
  | contract (message : String)
  | transport (cause : ApiCallError)
  | indeterminate (cause : ApiCallError)
deriving DecidableEq, Repr

/-- The folder types of `folder_system.rs`. -/
inductive MailSetKind where
  | custom | inbox | sent | trash | archive | spam | draft | all | label | imported | scheduled
  | unknown
deriving DecidableEq, Repr

/-- A mail folder, keyed by its stable `MailSet` element id. -/
structure FolderInfo where
  id : String
  listId : String
  entriesListId : String
  kind : MailSetKind
  imapPath : String
  specialUse : Option String
deriving DecidableEq, Repr

/-- Server-side operation of an entity update. -/
inductive Operation where
  | create
  | update
  | delete
  | other (code : Int)
deriving DecidableEq, Repr

/-- One entity update of a batch. `inlined` is the still-encrypted `instance`. -/
structure EntityUpdateEvent where
  application : String
  typeId : Int
  instanceListId : String
  instanceId : String
  operation : Operation
  inlined : Option String
  blobInstance : Option String
deriving DecidableEq, Repr

structure EntityUpdateBatch where
  batchId : String
  groupId : String
  updates : List EntityUpdateEvent
deriving DecidableEq, Repr

/-- A decoded event-bus message. The kinds this layer ignores carry their raw
payload, which nothing here reads. -/
inductive EventBusMessage where
  | entityUpdate (batch : EntityUpdateBatch)
  | counterUpdate
  | leaderStatus
  | operationStatusUpdate
  | initialSyncDone
  | initialSyncWorkEstimate (count : Nat)
  | phishingMarkers
  | unknown (kind payload : String)
deriving DecidableEq, Repr

end TutaBridge.Tuta
