import TutaBridge.Mail.Html
import TutaBridge.Std.Acting
import TutaBridge.Tuta.SelfSendCache

/-!
# Sending a mail

A submission is sent in two posts: one creates a draft, the other sends it. The files are uploaded before
the first under keys of their own, and their keys go out with the second, each with the file the server
made of it. A server answers as it likes, by all that it was asked before; what a key encrypts is the SDK's
to say, and it may fail to.
-/

namespace TutaBridge.Tuta

open TutaBridge.Std TutaBridge.Std.Text TutaBridge.Mail

/-! ## What is submitted and what is sent -/

/-- A `ParsedMessage`, as a send reads it. -/
structure OutgoingMessage where
  fromAddress : Text
  fromName : Text
  toRecipients : List (Text × Text)
  ccRecipients : List (Text × Text)
  bccRecipients : List (Text × Text)
  subject : Text
  bodyHtml : Text
  bodyText : Option Text
  isPlaintext : Bool
  messageId : Option Text
  inReplyTo : Option Text
  attachments : List CachedAttachment
deriving DecidableEq, Repr

/-- The message as the self-send cache reads it. -/
def OutgoingMessage.submission (message : OutgoingMessage) : Submission where
  fromAddress := message.fromAddress
  toAddresses := message.toRecipients.map Prod.snd
  ccAddresses := message.ccRecipients.map Prod.snd
  bccAddresses := message.bccRecipients.map Prod.snd
  subject := message.subject
  attachments := message.attachments

/-- What a key of the SDK encrypts, with an initialization vector: a text, where it does not fail, and a
key. The vectors are counted as they are drawn. -/
structure Encryption (κ : Type) where
  encryptData : κ → Nat → String → Except String (List UInt8)
  encryptKey : κ → Nat → κ → List UInt8

structure DraftRecipient where
  name : Text
  mailAddress : Text
deriving DecidableEq, Repr

structure NewDraftAttachment (τ : Type) where
  encFileName : List UInt8
  encMimeType : List UInt8
  referenceTokens : List τ
deriving DecidableEq, Repr

structure DraftAttachment (τ : Type) where
  ownerEncFileSessionKey : List UInt8
  ownerKeyVersion : Nat
  newFile : Option (NewDraftAttachment τ)
  existingFile : Option IdTuple
deriving DecidableEq, Repr

structure DraftData (τ : Type) where
  subject : Text
  bodyText : Text
  senderMailAddress : Text
  senderName : Text
  confidential : Bool
  method : Int
  compressedBodyText : Option Text
  toRecipients : List DraftRecipient
  ccRecipients : List DraftRecipient
  bccRecipients : List DraftRecipient
  addedAttachments : List (DraftAttachment τ)
  removedAttachments : List IdTuple
  replyTos : List Text
deriving DecidableEq, Repr

structure DraftCreateData (τ : Type) where
  previousMessageId : Option Text
  conversationType : Int
  ownerEncSessionKey : List UInt8
  ownerKeyVersion : Nat
  draftData : DraftData τ
deriving DecidableEq, Repr

structure AttachmentKeyData (κ : Type) where
  bucketEncFileSessionKey : Option (List UInt8)
  fileSessionKey : Option κ
  file : IdTuple
deriving DecidableEq, Repr

structure SendDraftParameters (κ : Type) where
  language : String
  mailSessionKey : Option κ
  plaintext : Bool
  mail : IdTuple
  attachmentKeyData : List (AttachmentKeyData κ)
deriving DecidableEq, Repr

structure SendDraftData (κ : Type) where
  language : String
  mailSessionKey : Option κ
  plaintext : Bool
  mail : IdTuple
  attachmentKeyData : List (AttachmentKeyData κ)
  parameters : Option (SendDraftParameters κ)
deriving DecidableEq, Repr

/-- `FileData`. -/
structure FileData (κ : Type) where
  sessionKey : κ
  data : List UInt8
deriving DecidableEq, Repr

/-- `CONVERSATION_TYPE_NEW`. -/
def conversationTypeNew : Int := 0

/-- `CONVERSATION_TYPE_REPLY`. -/
def conversationTypeReply : Int := 1

/-- `SENT_ID_CACHE_TTL`, in nanoseconds. -/
def sentIdCacheTtl : Nat := 60 * 60 * 1000000000

/-- `SENT_ID_CACHE_MAX_ENTRIES`. -/
def sentIdCacheMaxEntries : Nat := 200

/-- A `SentIdEntry` without its time. -/
structure SentId where
  tutaMessageId : Text
  elementId : String
deriving DecidableEq, Repr

/-! ## The server -/

/-- What was asked of the server, with its answer. -/
inductive Exchange (κ τ : Type) where
  | groupIdForMailAddress (address : Text) (answer : Except ApiCallError String)
  | currentSymGroupKey (group : String) (answer : Except ApiCallError (κ × Nat))
  | upload (group : String) (files : List (FileData κ)) (answer : Except ApiCallError (List (List τ)))
  | loadMailById (list element : Text) (answer : Except ApiCallError (Option IdTuple))
  | loadConversationEntry (id : IdTuple) (answer : Except ApiCallError Text)
  | createDraft (data : DraftCreateData τ) (sessionKey : κ) (answer : Except ApiCallError IdTuple)
  | loadMail (id : IdTuple) (answer : Except ApiCallError (List IdTuple))
  | sendDraft (data : SendDraftData κ) (answer : Except ApiCallError Text)
deriving DecidableEq

/-- What the server and the SDK in front of it answer. A mail is loaded for its conversation entry or for
its attachments; the SDK's executor seals the data of a draft with the session key. -/
structure MailServer (κ τ : Type) where
  groupIdForMailAddress : List (Exchange κ τ) → Text → Except ApiCallError String
  currentSymGroupKey : List (Exchange κ τ) → String → Except ApiCallError (κ × Nat)
  encryptAndUploadMultiple : List (Exchange κ τ) → String → List (FileData κ) →
    Except ApiCallError (List (List τ))
  loadMailById : List (Exchange κ τ) → Text → Text → Except ApiCallError (Option IdTuple)
  loadConversationEntry : List (Exchange κ τ) → IdTuple → Except ApiCallError Text
  createDraft : List (Exchange κ τ) → DraftCreateData τ → κ → Except ApiCallError IdTuple
  loadMail : List (Exchange κ τ) → IdTuple → Except ApiCallError (List IdTuple)
  sendDraft : List (Exchange κ τ) → SendDraftData κ → Except ApiCallError Text

/-- The session, with all that it asked. -/
structure SendState (κ τ : Type) where
  asked : List (Exchange κ τ)
  selfSends : SelfSendCache
  sentIds : BoundedCache Text SentId

/-- What a send takes from its surroundings: the times it reads the clock, before anything else, for the
message it follows and at its end, the orders in which its caches are walked, the keys it draws and what
they encrypt. -/
structure SendEnv (κ : Type) where
  casing : Casing
  email : Text
  now : Nat
  resolving : Nat
  later : Nat
  selfSendOrder : SelfSendOrder
  sentIdOrder : Walk (Text × Stamped SentId)
  draw : Nat → κ
  encryption : Encryption κ

section Send

variable {κ τ α : Type} (server : MailServer κ τ) (env : SendEnv κ)

abbrev Sending (κ τ α : Type) : Type := Acting (SendState κ τ) ApiCallError α

/-- Ask the server and go on with its answer, or stop with its error. -/
def request (answer : List (Exchange κ τ) → Except ApiCallError α)
    (exchange : Except ApiCallError α → Exchange κ τ) : Sending κ τ α := fun state =>
  (answer state.asked, { state with asked := state.asked ++ [exchange (answer state.asked)] })

/-- `NotFoundError`. -/
def isNotFound (error : ApiCallError) : Bool := error = .serverResponseError (.other "NotFoundError")

/-- The start of `send_mail_impl`. -/
def rememberSelfSend (message : OutgoingMessage) : Sending κ τ Unit := fun state =>
  (.ok (), { state with
    selfSends := sendMail env.casing env.email env.selfSendOrder env.now message.submission state.selfSends })

def groupIdForMailAddress (address : Text) : Sending κ τ String :=
  request (server.groupIdForMailAddress · address) (.groupIdForMailAddress address)

/-- The account's own address and its group. -/
def ownSender : Sending κ τ (Text × String) := do
  let group ← groupIdForMailAddress server env.email
  return (env.email, group)

/-- `resolve_sender`. -/
def resolveSender (requested : Text) : Sending κ τ (Text × String) :=
  if requested ≠ [] ∧ !eqIgnoreAsciiCase requested env.email then do
    match ← Acting.attempt (groupIdForMailAddress server requested) with
    | .ok group => return (requested, group)
    | .error error => if isNotFound error then ownSender server env else Acting.stop error
  else ownSender server env

/-- The keys of so many files. The first key that is drawn is the session key of the mail. -/
def fileKeys (count : Nat) : List κ := (List.range count).map fun index => env.draw (index + 1)

/-- A file of the draft. Each file takes three vectors, behind that of the session key of the mail. -/
def draftAttachment (groupKey : κ) (version : Nat) (attachment : CachedAttachment) (key : κ) (tokens : List τ)
    (index : Nat) : Except ApiCallError (DraftAttachment τ) := do
  let encFileName ← (env.encryption.encryptData key (3 * index + 1) attachment.filename).mapError fun error =>
    .internalSdkError s!"Failed to encrypt attachment name: {error}"
  let encMimeType ← (env.encryption.encryptData key (3 * index + 2) attachment.mimeType).mapError fun error =>
    .internalSdkError s!"Failed to encrypt attachment mime type: {error}"
  return {
    ownerEncFileSessionKey := env.encryption.encryptKey groupKey (3 * index + 3) key
    ownerKeyVersion := version
    newFile := some ⟨encFileName, encMimeType, tokens⟩
    existingFile := none }

/-- `build_added_attachments`. -/
def buildAddedAttachments (attachments : List CachedAttachment) (group : String) (groupKey : κ) (version : Nat) :
    Sending κ τ (List (DraftAttachment τ) × List κ) :=
  if attachments = [] then return ([], [])
  else do
    let keys := fileKeys env attachments.length
    let files := (attachments.zip keys).map fun pair => (⟨pair.2, pair.1.data⟩ : FileData κ)
    let tokens ← request (server.encryptAndUploadMultiple · group files) (.upload group files)
    if tokens.length ≠ attachments.length then
      Acting.stop (.internalSdkError
        s!"blob upload returned {tokens.length} token sets for {attachments.length} attachments")
    else do
      let drafts ← Acting.lift (((attachments.zip keys).zip tokens).zipIdx.mapM fun item =>
        draftAttachment env groupKey version item.1.1.1 item.1.1.2 item.1.2 item.2)
      return (drafts, keys)

/-- `build_draft_recipients`. -/
def buildDraftRecipients (recipients : List (Text × Text)) : List DraftRecipient :=
  recipients.map fun recipient => ⟨if recipient.1 = [] then recipient.2 else recipient.1, recipient.2⟩

/-- The body of `build_draft_data`. -/
def draftBody (message : OutgoingMessage) : Text :=
  match message.isPlaintext, message.bodyText with
  | true, some text => plaintextToTutaHtml text
  | _, _ => message.bodyHtml

/-- `build_draft_data`. -/
def buildDraftData (message : OutgoingMessage) (senderEmail : Text) (added : List (DraftAttachment τ)) :
    DraftData τ where
  subject := message.subject
  bodyText := draftBody message
  senderMailAddress := senderEmail
  senderName := if message.fromName = [] then senderEmail else message.fromName
  confidential := false
  method := 0
  compressedBodyText := some (draftBody message)
  toRecipients := buildDraftRecipients message.toRecipients
  ccRecipients := buildDraftRecipients message.ccRecipients
  bccRecipients := buildDraftRecipients message.bccRecipients
  addedAttachments := added
  removedAttachments := []
  replyTos := []

/-- `parse_bridge_local_id`. -/
def parseBridgeLocalId (id : Text) : Option (Text × Text) :=
  if "@tutabridge.local".toList.isSuffixOf id then
    (splitOnce '.' (id.take (id.length - "@tutabridge.local".length))).bind fun parts =>
      if parts.1 = [] ∨ parts.2 = [] then none else some parts
  else none

/-- `load_conversation_entry_message_id`. -/
def loadConversationEntryMessageId (list element : Text) : Sending κ τ (Option Text) := do
  match ← request (server.loadMailById · list element) (.loadMailById list element) with
  | none => return none
  | some entry =>
    match ← Acting.attempt (request (server.loadConversationEntry · entry) (.loadConversationEntry entry)) with
    | .ok id => return some id
    | .error error => if isNotFound error then return none else Acting.stop error

/-- `resolve_previous_message`. -/
def resolvePreviousMessage (inReplyTo : Text) : Sending κ τ (Option Text × Int) := do
  let state ← Acting.get
  match state.sentIds.lookup sentIdCacheTtl env.resolving inReplyTo with
  | some sent => return (some sent.tutaMessageId, conversationTypeReply)
  | none =>
    match parseBridgeLocalId inReplyTo with
    | some (list, element) =>
      match ← Acting.attempt (loadConversationEntryMessageId server list element) with
      | .ok (some id) => return (some id, conversationTypeReply)
      | _ => return (none, conversationTypeNew)
    | none => return (none, conversationTypeNew)

/-- `build_attachment_key_data`. -/
def buildAttachmentKeyData (draft : IdTuple) (keys : List κ) : Sending κ τ (List (AttachmentKeyData κ)) := do
  let files ← request (server.loadMail · draft) (.loadMail draft)
  if files.length ≠ keys.length then
    Acting.stop (.internalSdkError s!"DraftService returned {files.length} attachments but we uploaded {keys.length}")
  else return (files.zip keys).map fun pair => ⟨none, some pair.2, pair.1⟩

/-- The keys of the files, for which a mail without files is not loaded. -/
def attachmentKeyData (draft : IdTuple) (keys : List κ) : Sending κ τ (List (AttachmentKeyData κ)) :=
  if keys.isEmpty then pure [] else buildAttachmentKeyData server draft keys

/-- `build_send_draft_data`. -/
def buildSendDraftData (sessionKey : κ) (draft : IdTuple) (keyData : List (AttachmentKeyData κ)) (plaintext : Bool) :
    SendDraftData κ where
  language := "en"
  mailSessionKey := some sessionKey
  plaintext := plaintext
  mail := draft
  attachmentKeyData := keyData
  parameters := some ⟨"en", some sessionKey, plaintext, draft, keyData⟩

/-- `remember_sent_message_id`. -/
def rememberSentMessageId (submitted sent : Text) (draft : IdTuple) : Sending κ τ Unit := fun state =>
  (.ok (), { state with
    sentIds := state.sentIds.remember sentIdCacheMaxEntries env.sentIdOrder env.later submitted
      ⟨sent, draft.elementId⟩ })

/-- The end of `send_mail_impl`. -/
def rememberSent (message : OutgoingMessage) (sent : Text) (draft : IdTuple) : Sending κ τ Unit :=
  match message.messageId with
  | some submitted => rememberSentMessageId env submitted sent draft
  | none => pure ()

/-- The message that a submission follows. -/
def previousMessage (message : OutgoingMessage) : Sending κ τ (Option Text × Int) :=
  match message.inReplyTo with
  | some inReplyTo => resolvePreviousMessage server env inReplyTo
  | none => pure (none, conversationTypeNew)

/-- What is asked before the draft is created. -/
def prepareDraft (message : OutgoingMessage) : Sending κ τ (DraftCreateData τ × List κ) := do
  rememberSelfSend env message
  let (senderEmail, group) ← resolveSender server env message.fromAddress
  let (groupKey, version) ← request (server.currentSymGroupKey · group) (.currentSymGroupKey group)
  let (added, keys) ← buildAddedAttachments server env message.attachments group groupKey version
  let (previous, conversation) ← previousMessage server env message
  return (⟨previous, conversation, env.encryption.encryptKey groupKey 0 (env.draw 0), version,
    buildDraftData message senderEmail added⟩, keys)

/-- The two posts of a send. -/
def postMail (message : OutgoingMessage) (createData : DraftCreateData τ) (keys : List κ) : Sending κ τ Unit := do
  let draft ← request (server.createDraft · createData (env.draw 0)) (.createDraft createData (env.draw 0))
  let keyData ← attachmentKeyData server draft keys
  let sendData := buildSendDraftData (env.draw 0) draft keyData message.isPlaintext
  let sent ← request (server.sendDraft · sendData) (.sendDraft sendData)
  rememberSent env message sent draft

/-- `send_mail_impl`. -/
def sendMailImpl (message : OutgoingMessage) : Sending κ τ Unit := do
  let (createData, keys) ← prepareDraft server env message
  postMail server env message createData keys

end Send

end TutaBridge.Tuta
