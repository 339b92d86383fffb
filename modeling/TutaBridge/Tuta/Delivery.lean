import TutaBridge.Std.Utf8
import TutaBridge.Tuta.Sending

/-!
# What becomes of a submission

A send posts a draft and the mail made of it, each once at most, and returns exactly when the server took
the mail. Whoever gets the keys that were sent with it, and the account with the key of its group, opens
what was submitted: what a key encrypted it decrypts, and the server is trusted to keep drafts as well as
files under their tokens, and to list the files in the order they were sent in.
-/

namespace TutaBridge.Tuta

open TutaBridge.Std TutaBridge.Std.Text TutaBridge.Mail

variable {attachments : List CachedAttachment}

variable {κ τ : Type}

/-! ## What is posted -/

/-- A post that creates or sends a mail. -/
def Exchange.isPost : Exchange κ τ → Bool
  | .createDraft _ _ _ => true
  | .sendDraft _ _ => true
  | _ => false

/-- The posts among the requests. -/
def SendState.posts (state : SendState κ τ) : List (Exchange κ τ) := state.asked.filter Exchange.isPost

/-- What a send posted when it returned or stopped. -/
inductive Posted (sessionKey : κ) : List (Exchange κ τ) → Except ApiCallError Unit → Prop where
  | unprepared {error} : Posted sessionKey [] (.error error)
  | refused {data error} : Posted sessionKey [.createDraft data sessionKey (.error error)] (.error error)
  | unkeyed {data draft error} : Posted sessionKey [.createDraft data sessionKey (.ok draft)] (.error error)
  | unsent {data draft mail error} (same : mail.mail = draft) :
      Posted sessionKey [.createDraft data sessionKey (.ok draft), .sendDraft mail (.error error)] (.error error)
  | sent {data draft mail id} (same : mail.mail = draft) :
      Posted sessionKey [.createDraft data sessionKey (.ok draft), .sendDraft mail (.ok id)] (.ok ())

/-- More was asked, but nothing posted, and no sent id is remembered or forgotten. -/
structure Asks (before after : SendState κ τ) : Prop where
  asked : ∃ new, after.asked = before.asked ++ new ∧ ∀ exchange ∈ new, exchange.isPost = false
  sentIds : after.sentIds = before.sentIds

instance : Std.Refl (Asks : SendState κ τ → SendState κ τ → Prop) :=
  ⟨fun _ => ⟨⟨[], (List.append_nil _).symm, List.forall_mem_nil _⟩, rfl⟩⟩

instance : IsTrans (SendState κ τ) Asks where
  trans first second third one two := by
    obtain ⟨⟨new, asked, noPost⟩, same⟩ := one
    obtain ⟨⟨more, askedMore, noMore⟩, still⟩ := two
    refine ⟨⟨new ++ more, ?_, List.forall_mem_append.mpr ⟨noPost, noMore⟩⟩, still.trans same⟩
    rw [askedMore, asked, List.append_assoc]

section

variable {before after : SendState κ τ} (asks : Asks before after)

include asks

theorem Asks.posts : after.posts = before.posts := by
  obtain ⟨⟨new, asked, noPost⟩, -⟩ := asks
  have none : new.filter Exchange.isPost = [] :=
    List.filter_eq_nil_iff.mpr fun exchange mem => by simp [noPost exchange mem]
  rw [SendState.posts, asked, List.filter_append, none, List.append_nil, SendState.posts]

theorem Asks.isPrefix : before.asked <+: after.asked := by
  obtain ⟨⟨new, asked, -⟩, -⟩ := asks
  exact ⟨new, asked.symm⟩

theorem Asks.mem {exchange : Exchange κ τ} (mem : exchange ∈ before.asked) : exchange ∈ after.asked := by
  exact asks.isPrefix.subset mem

end

section Asking

variable {server : MailServer κ τ} {env : SendEnv κ} {α : Type}

theorem asks_request {answer : List (Exchange κ τ) → Except ApiCallError α}
    {exchange : Except ApiCallError α → Exchange κ τ} (noPost : ∀ result, (exchange result).isPost = false) :
    Acting.Within Asks (request answer exchange) := fun state =>
  ⟨⟨[exchange (answer state.asked)], rfl, List.forall_mem_singleton.mpr (noPost _)⟩, rfl⟩

theorem asks_rememberSelfSend (message : OutgoingMessage) :
    Acting.Within Asks (rememberSelfSend env message : Sending κ τ Unit) := fun _ =>
  ⟨⟨[], (List.append_nil _).symm, List.forall_mem_nil _⟩, rfl⟩

theorem asks_ownSender : Acting.Within Asks (ownSender server env) :=
  (asks_request fun _ => rfl).bind fun _ => Acting.within_pure _

theorem asks_resolveSender (requested : Text) : Acting.Within Asks (resolveSender server env requested) := by
  rw [resolveSender]
  split
  · refine Acting.Within.bind (asks_request fun _ => rfl).attempt fun result => ?_
    cases result with
    | ok group => exact Acting.within_pure _
    | error error =>
      dsimp only
      split
      · exact asks_ownSender
      · exact Acting.within_lift _
  · exact asks_ownSender

theorem asks_buildAddedAttachments (attachments : List CachedAttachment) (group : String) (groupKey : κ)
    (version : Nat) : Acting.Within Asks (buildAddedAttachments server env attachments group groupKey version) := by
  rw [buildAddedAttachments]
  split
  · exact Acting.within_pure _
  · refine Acting.Within.bind (asks_request fun _ => rfl) fun tokens => ?_
    split
    · exact Acting.within_lift _
    · exact Acting.Within.bind (Acting.within_lift _) fun drafts => Acting.within_pure _

theorem asks_loadConversationEntryMessageId (list element : Text) :
    Acting.Within Asks (loadConversationEntryMessageId server list element) := by
  refine Acting.Within.bind (asks_request fun _ => rfl) fun found => ?_
  cases found with
  | none => exact Acting.within_pure _
  | some entry =>
    refine Acting.Within.bind (asks_request fun _ => rfl).attempt fun result => ?_
    cases result with
    | ok id => exact Acting.within_pure _
    | error error =>
      dsimp only
      split
      · exact Acting.within_pure _
      · exact Acting.within_lift _

theorem asks_resolvePreviousMessage (inReplyTo : Text) :
    Acting.Within Asks (resolvePreviousMessage server env inReplyTo) := by
  refine Acting.Within.bind Acting.within_get fun state => ?_
  split
  · exact Acting.within_pure _
  · split
    · refine Acting.Within.bind (asks_loadConversationEntryMessageId _ _).attempt fun result => ?_
      split <;> exact Acting.within_pure _
    · exact Acting.within_pure _

theorem asks_buildAttachmentKeyData (draft : IdTuple) (keys : List κ) :
    Acting.Within Asks (buildAttachmentKeyData server draft keys) := by
  refine Acting.Within.bind (asks_request fun _ => rfl) fun files => ?_
  split
  · exact Acting.within_lift _
  · exact Acting.within_pure _

theorem asks_attachmentKeyData (draft : IdTuple) (keys : List κ) :
    Acting.Within Asks (attachmentKeyData server draft keys) := by
  rw [attachmentKeyData]
  split
  · exact Acting.within_pure _
  · exact asks_buildAttachmentKeyData draft keys

theorem asks_previousMessage (message : OutgoingMessage) :
    Acting.Within Asks (previousMessage server env message) := by
  rw [previousMessage]
  cases message.inReplyTo with
  | none => exact Acting.within_pure _
  | some inReplyTo => exact asks_resolvePreviousMessage inReplyTo

theorem asks_prepareDraft (message : OutgoingMessage) : Acting.Within Asks (prepareDraft server env message) := by
  refine Acting.Within.bind (asks_rememberSelfSend message) fun _ => ?_
  refine Acting.Within.bind (asks_resolveSender _) fun sender => ?_
  refine Acting.Within.bind (asks_request fun _ => rfl) fun groupKey => ?_
  refine Acting.Within.bind (asks_buildAddedAttachments _ _ _ _) fun added => ?_
  exact Acting.Within.bind (asks_previousMessage message) fun previous => Acting.within_pure _

end Asking

/-! ## Sent once -/

section Posting

variable (server : MailServer κ τ) (env : SendEnv κ) (message : OutgoingMessage)

/-- The ids of a mail that was taken. -/
def sentIdOf : List (Exchange κ τ) → Option SentId
  | [_, .sendDraft mail (.ok id)] => some ⟨id, mail.mail.elementId⟩
  | _ => none

/-- What is remembered of a send that posted this. -/
def remembered (new : List (Exchange κ τ)) (sentIds : BoundedCache Text SentId) : BoundedCache Text SentId :=
  match message.messageId, sentIdOf new with
  | some submitted, some sent =>
    sentIds.remember sentIdCacheMaxEntries env.sentIdOrder env.later submitted sent
  | _, _ => sentIds

/-- What a send leaves behind. -/
structure Outcome (before : SendState κ τ) (new : List (Exchange κ τ)) (result : Except ApiCallError Unit)
    (after : SendState κ τ) : Prop where
  posts : after.posts = before.posts ++ new
  posted : Posted (env.draw 0) new result
  sentIds : after.sentIds = remembered env message new before.sentIds

variable {server env message}

theorem remembered_of_unsent {new : List (Exchange κ τ)} (unsent : sentIdOf new = none)
    (sentIds : BoundedCache Text SentId) : remembered env message new sentIds = sentIds := by
  rw [remembered, unsent]
  cases message.messageId <;> rfl

theorem posts_append (state : SendState κ τ) {exchange : Exchange κ τ} (isPost : exchange.isPost = true) :
    ({ state with asked := state.asked ++ [exchange] } : SendState κ τ).posts = state.posts ++ [exchange] := by
  rw [SendState.posts, List.filter_append, List.filter_singleton, isPost]
  rfl

theorem request_of_ok {α : Type} {answer : List (Exchange κ τ) → Except ApiCallError α}
    {exchange : Except ApiCallError α → Exchange κ τ} {state : SendState κ τ} {value : α}
    (answers : answer state.asked = .ok value) : request answer exchange state =
      (.ok value, { state with asked := state.asked ++ [exchange (.ok value)] }) := by
  rw [request, answers]

theorem request_of_error {α : Type} {answer : List (Exchange κ τ) → Except ApiCallError α}
    {exchange : Except ApiCallError α → Exchange κ τ} {state : SendState κ τ} {error : ApiCallError}
    (answers : answer state.asked = .error error) : request answer exchange state =
      (.error error, { state with asked := state.asked ++ [exchange (.error error)] }) := by
  rw [request, answers]

theorem rememberSent_eq (state : SendState κ τ) (sent : Text) (draft : IdTuple) :
    rememberSent env message sent draft state = (.ok (), { state with
      sentIds := match message.messageId with
        | some submitted => state.sentIds.remember sentIdCacheMaxEntries env.sentIdOrder env.later submitted
            ⟨sent, draft.elementId⟩
        | none => state.sentIds }) := by
  rw [rememberSent]
  cases message.messageId <;> rfl

theorem outcome_of_post (state : SendState κ τ) (data : DraftCreateData τ) (keys : List κ) :
    ∃ new, Outcome env message state new (postMail server env message data keys state).1
      (postMail server env message data keys state).2 := by
  unfold postMail
  cases created : server.createDraft state.asked data (env.draw 0) with
  | error error =>
    rw [Acting.bind_of_error (request_of_error created)]
    exact ⟨[.createDraft data (env.draw 0) (.error error)], posts_append state rfl, .refused,
      (remembered_of_unsent rfl _).symm⟩
  | ok draft =>
  rw [Acting.bind_of_ok (request_of_ok created)]
  cases keyed : attachmentKeyData server draft keys
      { state with asked := state.asked ++ [.createDraft data (env.draw 0) (.ok draft)] } with
  | mk result between =>
  have asks := (asks_attachmentKeyData draft keys).of_eq keyed
  have posts := asks.posts.trans (posts_append state rfl)
  cases result with
  | error error =>
    rw [Acting.bind_of_error keyed]
    exact ⟨_, posts, .unkeyed, asks.sentIds.trans (remembered_of_unsent rfl _).symm⟩
  | ok keyData =>
  rw [Acting.bind_of_ok keyed]
  have both : ∀ answer : Except ApiCallError Text,
      between.posts ++ [.sendDraft (buildSendDraftData (env.draw 0) draft keyData message.isPlaintext) answer] =
        state.posts ++ [.createDraft data (env.draw 0) (.ok draft),
          .sendDraft (buildSendDraftData (env.draw 0) draft keyData message.isPlaintext) answer] := by
    intro answer
    rw [posts, List.append_assoc]
    rfl
  cases sent : server.sendDraft between.asked
      (buildSendDraftData (env.draw 0) draft keyData message.isPlaintext) with
  | error error =>
    rw [Acting.bind_of_error (request_of_error sent)]
    exact ⟨_, (posts_append between rfl).trans (both _), .unsent rfl,
      asks.sentIds.trans (remembered_of_unsent rfl _).symm⟩
  | ok id =>
    rw [Acting.bind_of_ok (request_of_ok sent), rememberSent_eq]
    refine ⟨_, (posts_append _ rfl).trans (both _), .sent rfl, ?_⟩
    rw [remembered, ← asks.sentIds]
    cases message.messageId <;> rfl

/-- A send posts a draft once at most and then the mail once at most; it returns where the server took the mail,
and stops where anything before that fails. -/
theorem outcome_of_send (state : SendState κ τ) :
    ∃ new, Outcome env message state new (sendMailImpl server env message state).1
      (sendMailImpl server env message state).2 := by
  unfold sendMailImpl
  cases prepared : prepareDraft server env message state with
  | mk result between =>
  have asks := (asks_prepareDraft message).of_eq prepared
  cases result with
  | error error =>
    rw [Acting.bind_of_error prepared]
    exact ⟨[], asks.posts.trans (List.append_nil _).symm, .unprepared,
      asks.sentIds.trans (remembered_of_unsent rfl _).symm⟩
  | ok draft =>
    rw [Acting.bind_of_ok prepared]
    obtain ⟨new, outcome⟩ := @outcome_of_post _ _ server env message between draft.1 draft.2
    refine ⟨new, outcome.posts.trans ?_, outcome.posted, outcome.sentIds.trans ?_⟩
    · rw [asks.posts]
    · rw [asks.sentIds]

end Posting

/-! ## What is opened -/

/-- What is opened: by a key, what it encrypted; and what the server keeps, the blobs of a file under its tokens
and what a draft holds, each with its key, and what a file of a draft was made of. -/
structure Storage (κ τ : Type) where
  decryptData : κ → List UInt8 → Option String
  decryptKey : κ → List UInt8 → Option κ
  blob : List τ → κ → Option (List UInt8)
  draft : IdTuple → κ → Option (DraftData τ)
  file : IdTuple → Option (DraftAttachment τ)

/-- What the SDK and the server are trusted with. A key decrypts what it encrypted. A file is kept under the tokens
that were answered, a draft with the session key it was created with, and a new draft lists the files it was
created with in their order. -/
structure Faithful (encryption : Encryption κ) (storage : Storage κ τ) (asked : List (Exchange κ τ)) : Prop where
  opensData : ∀ key vector text box, encryption.encryptData key vector text = .ok box →
    storage.decryptData key box = some text
  opensKey : ∀ key vector inner, storage.decryptKey key (encryption.encryptKey key vector inner) = some inner
  uploads : ∀ group files tokens, .upload group files (.ok tokens) ∈ asked →
    List.Forall₂ (fun tokens file => storage.blob tokens file.sessionKey = some file.data) tokens files
  creates : ∀ data key draft, .createDraft data key (.ok draft) ∈ asked →
    storage.draft draft key = some data.draftData
  attaches : ∀ data key draft files, [.createDraft data key (.ok draft), .loadMail draft (.ok files)] <:+: asked →
    files.map storage.file = data.draftData.addedAttachments.map some

/-- What was asked before was answered by the same server. -/
theorem Faithful.before {encryption : Encryption κ} {storage : Storage κ τ} {asked later : List (Exchange κ τ)}
    (faithful : Faithful encryption storage later) (first : asked <+: later) : Faithful encryption storage asked where
  opensData := faithful.opensData
  opensKey := faithful.opensKey
  uploads group files tokens mem := faithful.uploads group files tokens (first.subset mem)
  creates data key draft mem := faithful.creates data key draft (first.subset mem)
  attaches data key draft files within := faithful.attaches data key draft files (within.trans first.isInfix)

/-- A mail as it is read. -/
structure Delivery where
  senderName : Text
  senderAddress : Text
  subject : Text
  body : Text
  toRecipients : List (Text × Text)
  ccRecipients : List (Text × Text)
  bccRecipients : List (Text × Text)
  attachments : List CachedAttachment
deriving DecidableEq, Repr

section Reading

variable (storage : Storage κ τ)

/-- A file opened with its key: its name, its type and its content. -/
def DraftAttachment.openWith (key : κ) (attachment : DraftAttachment τ) : Option CachedAttachment := do
  let file ← attachment.newFile
  let filename ← storage.decryptData key file.encFileName
  let mimeType ← storage.decryptData key file.encMimeType
  let data ← storage.blob file.referenceTokens key
  return ⟨filename, mimeType, data⟩

/-- The recipients as the server has them. -/
def readRecipients (recipients : List DraftRecipient) : List (Text × Text) :=
  recipients.map fun recipient => (recipient.name, recipient.mailAddress)

/-- A mail read with its key, and with its files. -/
def readDraft (draft : IdTuple) (key : κ) (attachments : List CachedAttachment) : Option Delivery :=
  (storage.draft draft key).map fun data =>
    { senderName := data.senderName, senderAddress := data.senderMailAddress, subject := data.subject
      body := data.bodyText, toRecipients := readRecipients data.toRecipients
      ccRecipients := readRecipients data.ccRecipients, bccRecipients := readRecipients data.bccRecipients
      attachments := attachments }

/-- What is read with the keys that are sent with a mail. -/
def recipientReads (mail : SendDraftData κ) : Option Delivery := do
  let key ← mail.mailSessionKey
  let attachments ← mail.attachmentKeyData.mapM fun keyData => do
    let attachment ← storage.file keyData.file
    let fileKey ← keyData.fileSessionKey
    attachment.openWith storage fileKey
  readDraft storage mail.mail key attachments

/-- What is read of the copy that the account keeps, with the key of its group. -/
def ownerReads (groupKey : κ) (create : DraftCreateData τ) (draft : IdTuple) : Option Delivery := do
  let key ← storage.decryptKey groupKey create.ownerEncSessionKey
  let attachments ← create.draftData.addedAttachments.mapM fun attachment => do
    let fileKey ← storage.decryptKey groupKey attachment.ownerEncFileSessionKey
    attachment.openWith storage fileKey
  readDraft storage draft key attachments

/-- A name that is missing is the address. -/
def named (recipient : Text × Text) : Text × Text :=
  (if recipient.1 = [] then recipient.2 else recipient.1, recipient.2)

/-- A submission as it is to be read, from the address it goes out as. -/
def OutgoingMessage.delivery (message : OutgoingMessage) (sender : Text) : Delivery where
  senderName := if message.fromName = [] then sender else message.fromName
  senderAddress := sender
  subject := message.subject
  body := draftBody message
  toRecipients := message.toRecipients.map named
  ccRecipients := message.ccRecipients.map named
  bccRecipients := message.bccRecipients.map named
  attachments := message.attachments

variable {storage}

theorem readDraft_buildDraftData {draft : IdTuple} {key : κ} {message : OutgoingMessage} {sender : Text}
    {added : List (DraftAttachment τ)} (kept : storage.draft draft key = some (buildDraftData message sender added)) :
    readDraft storage draft key message.attachments = some (message.delivery sender) := by
  have recipients : ∀ given : List (Text × Text), readRecipients (buildDraftRecipients given) = given.map named := by
    intro given
    rw [readRecipients, buildDraftRecipients, List.map_map]
    rfl
  rw [readDraft, kept, Option.map_some]
  simp only [buildDraftData, recipients]
  rfl

/-- The files of a draft, their keys and what they are made of. -/
inductive Attached (storage : Storage κ τ) (groupKey : κ) :
    List CachedAttachment → List κ → List (DraftAttachment τ) → Prop where
  | nil : Attached storage groupKey [] [] []
  | cons {attachment key draft attachments keys drafts} (opens : draft.openWith storage key = some attachment)
      (owned : storage.decryptKey groupKey draft.ownerEncFileSessionKey = some key)
      (others : Attached storage groupKey attachments keys drafts) :
      Attached storage groupKey (attachment :: attachments) (key :: keys) (draft :: drafts)

variable {env : SendEnv κ} {asked : List (Exchange κ τ)}

/-- A file of the draft is opened by its own key, which the key of the group gives. -/
theorem opens_draftAttachment (faithful : Faithful env.encryption storage asked) {groupKey key : κ}
    {version index : Nat} {attachment : CachedAttachment} {tokens : List τ} {draft : DraftAttachment τ}
    (built : draftAttachment env groupKey version attachment key tokens index = .ok draft)
    (kept : storage.blob tokens key = some attachment.data) : draft.openWith storage key = some attachment ∧
      storage.decryptKey groupKey draft.ownerEncFileSessionKey = some key := by
  obtain ⟨name, isName, built⟩ := except_bind_eq_ok_iff.mp built
  obtain ⟨type, isType, built⟩ := except_bind_eq_ok_iff.mp built
  cases built
  have opensName := faithful.opensData _ _ _ _ (except_mapError_eq_ok_iff.mp isName)
  have opensType := faithful.opensData _ _ _ _ (except_mapError_eq_ok_iff.mp isType)
  refine ⟨?_, faithful.opensKey _ _ _⟩
  simp [DraftAttachment.openWith, opensName, opensType, kept]

/-- What was uploaded is attached. -/
theorem attached_of_uploads (faithful : Faithful env.encryption storage asked) {groupKey : κ}
    {version start : Nat} {keys : List κ} {tokens : List (List τ)} {drafts : List (DraftAttachment τ)}
    (sameLength : keys.length = attachments.length)
    (kept : List.Forall₂ (fun tokens file => storage.blob tokens file.sessionKey = some file.data) tokens
      ((attachments.zip keys).map fun pair => (⟨pair.2, pair.1.data⟩ : FileData κ)))
    (built : (((attachments.zip keys).zip tokens).zipIdx start).mapM (fun item =>
      draftAttachment env groupKey version item.1.1.1 item.1.1.2 item.1.2 item.2) = .ok drafts) :
    Attached storage groupKey attachments keys drafts := by
  induction attachments generalizing keys tokens drafts start with
  | nil =>
    obtain rfl := List.length_eq_zero_iff.mp sameLength
    cases built
    exact .nil
  | cons attachment attachments ih =>
    cases keys with
    | nil => cases sameLength
    | cons key keys =>
      cases kept with
      | cons isKept areKept =>
        rw [List.zip_cons_cons, List.zip_cons_cons, List.zipIdx_cons, List.mapM_cons] at built
        obtain ⟨draft, isDraft, built⟩ := except_bind_eq_ok_iff.mp built
        obtain ⟨others, areOthers, same⟩ := except_bind_eq_ok_iff.mp built
        cases same
        obtain ⟨opens, owned⟩ := opens_draftAttachment faithful isDraft isKept
        exact .cons opens owned (ih (Nat.succ.inj sameLength) areKept areOthers)

section

variable {groupKey : κ} {keys : List κ} {drafts : List (DraftAttachment τ)}
    (attached : Attached storage groupKey attachments keys drafts)

include attached

theorem ownerOpens_of_attached : (drafts.mapM fun draft => do
      let fileKey ← storage.decryptKey groupKey draft.ownerEncFileSessionKey
      draft.openWith storage fileKey) = some attachments := by
  induction attached with
  | nil => rfl
  | cons opens owned others ih =>
    rw [List.mapM_cons, owned, ih]
    simp [opens]

/-- The keys that are sent with a mail open its files, in whichever order they were made. -/
theorem recipientOpens_of_attached
    {files : List IdTuple} (listed : files.map storage.file = drafts.map some) :
    (((files.zip keys).map fun pair => (⟨none, some pair.2, pair.1⟩ : AttachmentKeyData κ)).mapM fun keyData => do
      let attachment ← storage.file keyData.file
      let fileKey ← keyData.fileSessionKey
      attachment.openWith storage fileKey) = some attachments := by
  induction attached generalizing files with
  | nil =>
    obtain rfl := List.map_eq_nil_iff.mp listed
    rfl
  | cons opens owned others ih =>
    cases files with
    | nil => cases listed
    | cons file files =>
      obtain ⟨isFile, areFiles⟩ := List.cons.inj listed
      rw [List.zip_cons_cons, List.map_cons, List.mapM_cons, ih areFiles]
      simp [isFile, opens]

end

end Reading

/-! ## What is delivered -/

section Delivering

variable {server : MailServer κ τ} {env : SendEnv κ} {message : OutgoingMessage} {state after : SendState κ τ}

theorem request_eq_ok_iff {α : Type} {answer : List (Exchange κ τ) → Except ApiCallError α}
    {exchange : Except ApiCallError α → Exchange κ τ} {value : α} :
    request answer exchange state = (.ok value, after) ↔
      answer state.asked = .ok value ∧ after = { state with asked := state.asked ++ [exchange (.ok value)] } := by
  rw [request, Prod.mk.injEq]
  exact and_congr_right fun answers => by rw [answers, eq_comm]

/-- The address a mail goes out as: the one that was asked for, or the account's own where it may not use that. -/
def SendsAs (env : SendEnv κ) (requested sender : Text) (asked : List (Exchange κ τ)) : Prop :=
  sender = requested ∨ sender = env.email ∧ (requested = [] ∨ eqIgnoreAsciiCase requested env.email = true ∨
    ∃ error, isNotFound error = true ∧ .groupIdForMailAddress requested (.error error) ∈ asked)

theorem ownSender_eq_ok {sender : Text × String} (ran : ownSender server env state = (.ok sender, after)) :
    sender.1 = env.email ∧ .groupIdForMailAddress sender.1 (.ok sender.2) ∈ after.asked := by
  obtain ⟨group, _, asked, returned⟩ := Acting.bind_eq_iff.mp ran
  obtain ⟨rfl, rfl⟩ := Acting.pure_eq_iff.mp returned
  obtain ⟨-, rfl⟩ := request_eq_ok_iff.mp asked
  exact ⟨rfl, List.mem_append_right _ (List.mem_singleton_self _)⟩

/-- The group is the one of the address the mail goes out as. -/
theorem resolveSender_eq_ok {requested : Text} {sender : Text × String}
    (ran : resolveSender server env requested state = (.ok sender, after)) :
    SendsAs env requested sender.1 after.asked ∧ .groupIdForMailAddress sender.1 (.ok sender.2) ∈ after.asked := by
  rw [resolveSender] at ran
  split at ran
  next =>
    obtain ⟨result, _, attempted, returned⟩ := Acting.bind_eq_iff.mp ran
    have asked := Acting.attempt_eq_iff.mp attempted
    rw [groupIdForMailAddress, request, Prod.mk.injEq] at asked
    obtain ⟨isResult, rfl⟩ := asked
    cases result with
    | ok group =>
      obtain ⟨rfl, rfl⟩ := Acting.pure_eq_iff.mp returned
      refine ⟨.inl rfl, List.mem_append_right _ (List.mem_singleton.mpr ?_)⟩
      rw [isResult]
    | error error =>
      dsimp only at returned
      split at returned
      next notFound =>
        obtain ⟨isOwn, isGroup⟩ := ownSender_eq_ok returned
        refine ⟨.inr ⟨isOwn, .inr (.inr ⟨error, notFound, ?_⟩)⟩, isGroup⟩
        refine (asks_ownSender.of_eq returned).mem (List.mem_append_right _ (List.mem_singleton.mpr ?_))
        rw [isResult]
      next => exact absurd returned Acting.stop_ne
  next own =>
    obtain ⟨isOwn, isGroup⟩ := ownSender_eq_ok ran
    refine ⟨.inr ⟨isOwn, ?_⟩, isGroup⟩
    simp only [ne_eq, Bool.not_eq_true', not_and, Bool.not_eq_false] at own
    by_cases isEmpty : requested = []
    · exact .inl isEmpty
    · exact .inr (.inl (own isEmpty))

variable {storage : Storage κ τ}

theorem attached_of_build (faithful : Faithful env.encryption storage after.asked) {group : String} {groupKey : κ}
    {version : Nat} {built : List (DraftAttachment τ) × List κ}
    (ran : buildAddedAttachments server env attachments group groupKey version state = (.ok built, after)) :
    Attached storage groupKey attachments built.2 built.1 := by
  rw [buildAddedAttachments] at ran
  split at ran
  next isEmpty =>
    obtain ⟨rfl, -⟩ := Acting.pure_eq_iff.mp ran
    exact isEmpty ▸ .nil
  next =>
    obtain ⟨tokens, _, uploaded, returned⟩ := Acting.bind_eq_iff.mp ran
    obtain ⟨-, rfl⟩ := request_eq_ok_iff.mp uploaded
    split at returned
    · exact absurd returned Acting.stop_ne
    · obtain ⟨drafts, _, lifted, returned⟩ := Acting.bind_eq_iff.mp returned
      obtain ⟨areDrafts, rfl⟩ := Acting.lift_eq_iff.mp lifted
      obtain ⟨rfl, rfl⟩ := Acting.pure_eq_iff.mp returned
      have kept := faithful.uploads _ _ _ (List.mem_append_right _ (List.mem_singleton_self _))
      refine attached_of_uploads faithful ?_ kept areDrafts
      rw [fileKeys, List.length_map, List.length_range]

/-- What a draft is made of. -/
structure Drafted (storage : Storage κ τ) (env : SendEnv κ) (message : OutgoingMessage)
    (asked : List (Exchange κ τ)) (data : DraftCreateData τ) (keys : List κ) (sender : Text) (groupKey : κ) :
    Prop where
  sendsAs : SendsAs env message.fromAddress sender asked
  group : ∃ group version, .groupIdForMailAddress sender (.ok group) ∈ asked ∧
    .currentSymGroupKey group (.ok (groupKey, version)) ∈ asked
  owned : storage.decryptKey groupKey data.ownerEncSessionKey = some (env.draw 0)
  attached : Attached storage groupKey message.attachments keys data.draftData.addedAttachments
  data : data.draftData = buildDraftData message sender data.draftData.addedAttachments

theorem drafted_of_prepare (faithful : Faithful env.encryption storage after.asked)
    {draft : DraftCreateData τ × List κ}
    (ran : prepareDraft server env message state = (.ok draft, after)) :
    ∃ sender groupKey, Drafted storage env message after.asked draft.1 draft.2 sender groupKey := by
  obtain ⟨-, first, -, ran⟩ := Acting.bind_eq_iff.mp ran
  obtain ⟨sender, second, resolved, ran⟩ := Acting.bind_eq_iff.mp ran
  obtain ⟨sendsAs, isGroup⟩ := resolveSender_eq_ok resolved
  obtain ⟨groupKey, third, keyed, ran⟩ := Acting.bind_eq_iff.mp ran
  obtain ⟨-, rfl⟩ := request_eq_ok_iff.mp keyed
  obtain ⟨built, fourth, added, ran⟩ := Acting.bind_eq_iff.mp ran
  obtain ⟨previous, fifth, followed, returned⟩ := Acting.bind_eq_iff.mp ran
  obtain ⟨rfl, rfl⟩ := Acting.pure_eq_iff.mp returned
  have attached := attached_of_build
    (faithful.before ((asks_previousMessage message).of_eq followed).isPrefix) added
  have later : Asks { second with asked := second.asked ++ [.currentSymGroupKey sender.2 (.ok groupKey)] } fifth :=
    IsTrans.trans _ _ _ ((asks_buildAddedAttachments _ _ _ _).of_eq added)
      ((asks_previousMessage message).of_eq followed)
  have kept : ∀ exchange ∈ second.asked, exchange ∈ fifth.asked := fun exchange mem =>
    later.mem (List.mem_append_left _ mem)
  refine ⟨sender.1, groupKey.1, ⟨?_, ⟨sender.2, groupKey.2, kept _ isGroup, ?_⟩, faithful.opensKey _ _ _, attached,
    rfl⟩⟩
  · refine sendsAs.imp_right fun own => own.imp_right fun why => why.imp_right fun why => why.imp_right ?_
    rintro ⟨error, notFound, mem⟩
    exact ⟨error, notFound, kept _ mem⟩
  · exact later.mem (List.mem_append_right _ (List.mem_singleton_self _))

/-- The keys that go out with a mail open the files of its draft. -/
theorem recipientOpens_of_keyed (faithful : Faithful env.encryption storage after.asked)
    {groupKey key : κ} {keys : List κ} {create : DraftCreateData τ} {draft : IdTuple}
    {keyData : List (AttachmentKeyData κ)}
    (attached : Attached storage groupKey attachments keys create.draftData.addedAttachments)
    (keyed : attachmentKeyData server draft keys
      { state with asked := state.asked ++ [.createDraft create key (.ok draft)] } = (.ok keyData, after)) :
    (keyData.mapM fun keyData => do
      let attachment ← storage.file keyData.file
      let fileKey ← keyData.fileSessionKey
      attachment.openWith storage fileKey) = some attachments := by
  rw [attachmentKeyData] at keyed
  split at keyed
  next isEmpty =>
    obtain ⟨rfl, -⟩ := Acting.pure_eq_iff.mp keyed
    rw [List.isEmpty_iff] at isEmpty
    generalize create.draftData.addedAttachments = drafts at attached
    subst isEmpty
    cases attached
    rfl
  next =>
    obtain ⟨files, _, loaded, returned⟩ := Acting.bind_eq_iff.mp keyed
    obtain ⟨-, rfl⟩ := request_eq_ok_iff.mp loaded
    split at returned
    · exact absurd returned Acting.stop_ne
    · obtain ⟨rfl, rfl⟩ := Acting.pure_eq_iff.mp returned
      refine recipientOpens_of_attached attached (faithful.attaches create key draft files ⟨state.asked, [], ?_⟩)
      rw [List.append_nil, List.append_assoc]
      rfl

/-- A submission whose send returns was posted once, from an address of the account with the key of that address's
group. Whoever has the keys that were sent with the mail, and the account with the key of the group, reads exactly
what was submitted. -/
theorem sendMail_delivers (faithful : Faithful env.encryption storage after.asked)
    (ran : sendMailImpl server env message state = (.ok (), after)) : ∃ sender groupKey create draft mail id,
      after.posts = state.posts ++ [.createDraft create (env.draw 0) (.ok draft), .sendDraft mail (.ok id)] ∧
      mail.mail = draft ∧ mail.plaintext = message.isPlaintext ∧
      recipientReads storage mail = some (message.delivery sender) ∧
      ownerReads storage groupKey create draft = some (message.delivery sender) ∧
      SendsAs env message.fromAddress sender after.asked ∧
      ∃ group version, .groupIdForMailAddress sender (.ok group) ∈ after.asked ∧
        .currentSymGroupKey group (.ok (groupKey, version)) ∈ after.asked := by
  obtain ⟨⟨create, keys⟩, between, prepared, posted⟩ := Acting.bind_eq_iff.mp ran
  have asks := (asks_prepareDraft message).of_eq prepared
  obtain ⟨draft, created, isCreated, posted⟩ := Acting.bind_eq_iff.mp posted
  obtain ⟨-, rfl⟩ := request_eq_ok_iff.mp isCreated
  obtain ⟨keyData, loaded, keyed, posted⟩ := Acting.bind_eq_iff.mp posted
  have asksKeys := (asks_attachmentKeyData draft keys).of_eq keyed
  obtain ⟨id, sent, isSent, ended⟩ := Acting.bind_eq_iff.mp posted
  obtain ⟨-, rfl⟩ := request_eq_ok_iff.mp isSent
  rw [rememberSent_eq] at ended
  obtain rfl := (Prod.mk.inj ended).2
  have kept : ∀ exchange ∈ between.asked, exchange ∈ loaded.asked := fun exchange mem =>
    asksKeys.mem (List.mem_append_left _ mem)
  have faithfulKeys : Faithful env.encryption storage loaded.asked := faithful.before (List.prefix_append _ _)
  obtain ⟨sender, groupKey, drafted⟩ := drafted_of_prepare
    (faithfulKeys.before ((List.prefix_append _ _).trans asksKeys.isPrefix)) prepared
  have holds : storage.draft draft (env.draw 0) =
      some (buildDraftData message sender create.draftData.addedAttachments) := by
    rw [← drafted.data]
    exact faithfulKeys.creates _ _ _ (asksKeys.mem (List.mem_append_right _ (List.mem_singleton_self _)))
  have recipient : recipientReads storage
      (buildSendDraftData (env.draw 0) draft keyData message.isPlaintext) = some (message.delivery sender) := by
    have opens := recipientOpens_of_keyed faithfulKeys drafted.attached keyed
    rw [recipientReads, buildSendDraftData, Option.bind_eq_bind, Option.bind_some, opens]
    exact readDraft_buildDraftData holds
  have owner : ownerReads storage groupKey create draft = some (message.delivery sender) := by
    have opens := ownerOpens_of_attached drafted.attached
    rw [ownerReads, drafted.owned, Option.bind_eq_bind, Option.bind_some, opens]
    exact readDraft_buildDraftData holds
  refine ⟨sender, groupKey, create, draft, _, id, ?_, rfl, rfl, recipient, owner, ?_, ?_⟩
  · refine (posts_append loaded rfl).trans ?_
    rw [asksKeys.posts, posts_append between rfl, asks.posts, List.append_assoc]
    rfl
  · refine drafted.sendsAs.imp_right fun own => own.imp_right fun why => why.imp_right fun why => why.imp_right ?_
    rintro ⟨error, notFound, mem⟩
    exact ⟨error, notFound, List.mem_append_left _ (kept _ mem)⟩
  · obtain ⟨group, version, isGroup, isKey⟩ := drafted.group
    exact ⟨group, version, List.mem_append_left _ (kept _ isGroup), List.mem_append_left _ (kept _ isKey)⟩

end Delivering

/-! ## A mail with a scan -/

def scanned : CachedAttachment := ⟨"scan.pdf", "application/pdf", [1, 2, 3]⟩

/-- Keys of one octet, which stands before what they encrypt. -/
def octetKeys : Encryption UInt8 where
  encryptData key vector text := .ok (key :: UInt8.ofNat vector :: Utf8.encode text.toList)
  encryptKey key vector inner := [key, UInt8.ofNat vector, inner]

/-- A server with one account, whose tokens are the keys and contents they stand for. -/
def oneAccount : MailServer UInt8 (UInt8 × List UInt8) where
  groupIdForMailAddress _ address :=
    if address = "me@tuta.com".toList then .ok "group" else .error (.serverResponseError (.other "NotFoundError"))
  currentSymGroupKey _ _ := .ok (200, 0)
  encryptAndUploadMultiple _ _ files := .ok (files.map fun file => [(file.sessionKey, file.data)])
  loadMailById _ _ _ := .ok none
  loadConversationEntry _ _ := .error .restClient
  createDraft _ _ _ := .ok ⟨"drafts", "d1"⟩
  loadMail _ _ := .ok [⟨"files", "f1"⟩]
  sendDraft _ _ := .ok "sent@tuta.com".toList

/-- A scan that is sent as another address, which the account may not use. -/
def scanMessage : OutgoingMessage where
  fromAddress := "git@example.org".toList
  fromName := []
  toRecipients := [([], "you@example.org".toList)]
  ccRecipients := []
  bccRecipients := []
  subject := "Scan".toList
  bodyHtml := "<p>see file</p>".toList
  bodyText := none
  isPlaintext := false
  messageId := some "1@example.org".toList
  inReplyTo := none
  attachments := [scanned]

def scanEnv : SendEnv UInt8 where
  casing := .ascii
  email := "me@tuta.com".toList
  now := 0
  resolving := 0
  later := 1
  selfSendOrder := ⟨id, fun _ => .refl _⟩
  sentIdOrder := ⟨id, fun _ => .refl _⟩
  draw := UInt8.ofNat
  encryption := octetKeys

def scannedFile : DraftAttachment (UInt8 × List UInt8) where
  ownerEncFileSessionKey := [200, 3, 1]
  ownerKeyVersion := 0
  newFile := some ⟨1 :: 1 :: Utf8.encode "scan.pdf".toList, 1 :: 2 :: Utf8.encode "application/pdf".toList,
    [(1, [1, 2, 3])]⟩
  existingFile := none

def scannedDraft : DraftCreateData (UInt8 × List UInt8) :=
  ⟨none, conversationTypeNew, [200, 0, 0], 0, buildDraftData scanMessage "me@tuta.com".toList [scannedFile]⟩

def oneFile : Storage UInt8 (UInt8 × List UInt8) where
  decryptData key box :=
    match box with
    | first :: _ :: rest => if first = key then (Utf8.decode rest).map String.ofList else none
    | _ => none
  decryptKey key box :=
    match box with
    | [first, _, inner] => if first = key then some inner else none
    | _ => none
  blob tokens key :=
    match tokens with
    | [token] => if token.1 = key then some token.2 else none
    | _ => none
  draft id key := if id = ⟨"drafts", "d1"⟩ ∧ key = 0 then some scannedDraft.draftData else none
  file id := if id = ⟨"files", "f1"⟩ then some scannedFile else none

/-- What is asked when the scan is sent. -/
def scanAsked : List (Exchange UInt8 (UInt8 × List UInt8)) :=
  [.groupIdForMailAddress "git@example.org".toList (.error (.serverResponseError (.other "NotFoundError"))),
    .groupIdForMailAddress "me@tuta.com".toList (.ok "group"), .currentSymGroupKey "group" (.ok (200, 0)),
    .upload "group" [⟨1, [1, 2, 3]⟩] (.ok [[(1, [1, 2, 3])]]),
    .createDraft scannedDraft 0 (.ok ⟨"drafts", "d1"⟩), .loadMail ⟨"drafts", "d1"⟩ (.ok [⟨"files", "f1"⟩]),
    .sendDraft (buildSendDraftData 0 ⟨"drafts", "d1"⟩ [⟨none, some 1, ⟨"files", "f1"⟩⟩] false)
      (.ok "sent@tuta.com".toList)]

theorem faithful_scanAsked : Faithful octetKeys oneFile scanAsked where
  opensData key vector text box encrypted := by
    cases encrypted
    simp [oneFile, Utf8.decode_encode]
  opensKey key vector inner := if_pos rfl
  uploads group files tokens mem := by
    simp only [scanAsked, List.mem_cons, reduceCtorEq, Exchange.upload.injEq, false_or, or_false,
      List.not_mem_nil] at mem
    obtain ⟨-, rfl, same⟩ := mem
    cases same
    exact .cons rfl .nil
  creates data key draft mem := by
    simp only [scanAsked, List.mem_cons, reduceCtorEq, Exchange.createDraft.injEq, false_or, or_false,
      List.not_mem_nil] at mem
    obtain ⟨rfl, rfl, same⟩ := mem
    cases same
    rfl
  attaches data key draft files within := by
    have created := within.subset List.mem_cons_self
    have loaded := within.subset (List.mem_cons_of_mem _ List.mem_cons_self)
    simp only [scanAsked, List.mem_cons, reduceCtorEq, Exchange.createDraft.injEq, Exchange.loadMail.injEq, false_or,
      or_false, List.not_mem_nil] at created loaded
    obtain ⟨rfl, -, -⟩ := created
    obtain ⟨-, same⟩ := loaded
    cases same
    rfl

theorem sendMail_delivers_scan : ∃ sender mail, recipientReads oneFile mail = some (scanMessage.delivery sender) := by
  have ran : sendMailImpl oneAccount scanEnv scanMessage ⟨[], .empty, .empty⟩ =
      (.ok (), (sendMailImpl oneAccount scanEnv scanMessage ⟨[], .empty, .empty⟩).2) :=
    Prod.ext (by decide +kernel) rfl
  have asked : (sendMailImpl oneAccount scanEnv scanMessage ⟨[], .empty, .empty⟩).2.asked = scanAsked := by rfl
  have faithful : Faithful scanEnv.encryption oneFile
      (sendMailImpl oneAccount scanEnv scanMessage ⟨[], .empty, .empty⟩).2.asked := by
    rw [asked]
    exact faithful_scanAsked
  obtain ⟨sender, _, _, _, mail, _, -, -, -, reads, -⟩ := sendMail_delivers faithful ran
  exact ⟨sender, mail, reads⟩

end TutaBridge.Tuta
