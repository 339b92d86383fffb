import TutaBridge.Mail.Headers
import TutaBridge.Mail.Html
import TutaBridge.Mail.Rfc2822
import TutaBridge.Std.LineBlock
import TutaBridge.Tuta.MailSetEntryId

/-!
# The message of a mail

`mail_to_rfc2822` writes a mail as the message that is served for it. Its headers are
lines of a name and a value, and every value takes an encoding that keeps it on its line,
so what a sender wrote neither adds a header nor ends them.
-/

namespace TutaBridge.Mail

open TutaBridge.Std TutaBridge.Std.Text Tuta

/-! ## The lines of a message -/

def newline : Text := ['\r', '\n']

/-- A header as it is written, without its line break. -/
def headerLine (name : String) (value : Text) : Text := name.toList ++ ':' :: ' ' :: value

/-- A header that is written only for a list with addresses in it. -/
def addressHeaderLine (name : String) (addresses : List Text) : Text :=
  if addresses = [] then [] else headerLine name (", ".toList.intercalate addresses) ++ newline

/-- `reply_to_addresses`. -/
def replyToAddresses (details : MailDetails) : List (Text × Text) :=
  (details.replyTos.map fun replyTo => (replyTo.name.toList, trim replyTo.address.toList)).filter
    fun replyTo => replyTo.2 ≠ []

/-- The chunks of the base64 lines. -/
def chunks (width : Nat) (text : Text) : List Text :=
  (List.range ((text.length + width - 1) / width)).map fun row =>
    (text.drop (row * width)).take width

/-- `base64_encode_body`. -/
def base64EncodeBody (data : List UInt8) : Text :=
  joinLines (chunks 76 (Base64.encodePadded Base64.standard data).toList)

/-- `build_boundary`. -/
def buildBoundary (mail : Mail) : Text :=
  match mail.id with
  | some id => "=_TutaBridge_".toList ++ id.listId.toList ++ '_' :: id.elementId.toList
  | none => "=_TutaBridge_unknown".toList

/-- `build_alt_boundary`. -/
def buildAltBoundary (mail : Mail) : Text :=
  match mail.id with
  | some id => "=_TutaBridgeAlt_".toList ++ id.listId.toList ++ '_' :: id.elementId.toList
  | none => "=_TutaBridgeAlt_unknown".toList

/-- A Content-Type of several parts. -/
def multipartType (subtype : String) (boundary : Text) : Text :=
  "multipart/".toList ++ subtype.toList ++ "; boundary=\"".toList ++ boundary ++ ['"']

/-! ## The parts of a message -/

/-- What stands between a boundary and the text of a part. -/
def textPartHeaders (subtype : String) : Text :=
  headerLine "Content-Type" ("text/".toList ++ subtype.toList ++ "; charset=UTF-8".toList) ++ newline ++
    headerLine "Content-Transfer-Encoding" "base64".toList ++ newline ++ newline

/-- `push_alternative_body` behind its header. -/
def alternativeParts (boundary plain html : Text) : Text :=
  "--".toList ++ boundary ++ newline ++ textPartHeaders "plain" ++
    base64EncodeBody (Utf8.encode plain) ++ newline ++
    "--".toList ++ boundary ++ newline ++ textPartHeaders "html" ++
    base64EncodeBody (Utf8.encode html) ++ newline ++ "--".toList ++ boundary ++ "--".toList ++ newline

/-- `push_alternative_body`. -/
def pushAlternativeBody (boundary plain html : Text) : Text :=
  headerLine "Content-Type" (multipartType "alternative" boundary) ++ newline ++ newline ++
    alternativeParts boundary plain html

/-- The part of an attachment. -/
def attachmentPart (boundary : Text) (file : TutanotaFile) (data : List UInt8) : Text :=
  let mime := ((file.mimeType.map String.toList).getD "application/octet-stream".toList)
  let nameEncoded := encodeHeaderValue file.name.toList
  "--".toList ++ boundary ++ newline ++
    headerLine "Content-Type" (mime ++ "; name=\"".toList ++ nameEncoded ++ ['"']) ++ newline ++
    headerLine "Content-Transfer-Encoding" "base64".toList ++ newline ++
    headerLine "Content-Disposition" ("attachment; filename=\"".toList ++ nameEncoded ++ ['"']) ++ newline ++
    (match file.cid with
      | some cid => headerLine "Content-ID" ('<' :: (cid.toList ++ ['>'])) ++ newline
      | none => []) ++
    newline ++ base64EncodeBody data ++ newline

/-- The body's text of `mail_to_rfc2822`. -/
def bodyText (details : Option MailDetails) : Text :=
  (((details.bind fun details => details.body.compressedText.or details.body.text).map
    String.toList).getD "<p>(No body available)</p>".toList)

/-- What `mail_to_rfc2822` writes behind `MIME-Version`. -/
def messageContent (mail : Mail) (details : Option MailDetails)
    (attachments : List (TutanotaFile × List UInt8)) : Text :=
  let html := bodyText details
  let plain := htmlToText html
  if attachments = [] then pushAlternativeBody (buildAltBoundary mail) plain html
  else
    headerLine "Content-Type" (multipartType "mixed" (buildBoundary mail)) ++ newline ++ newline ++
      "This is a multi-part message in MIME format.".toList ++ newline ++
      "--".toList ++ buildBoundary mail ++ newline ++
      pushAlternativeBody (buildAltBoundary mail) plain html ++
      attachments.flatMap (fun attachment =>
        attachmentPart (buildBoundary mail) attachment.1 attachment.2) ++
      "--".toList ++ buildBoundary mail ++ "--".toList ++ newline

/-- `mail_to_rfc2822`. -/
def mailToRfc2822 (mail : Mail) (details : Option MailDetails)
    (attachments : List (TutanotaFile × List UInt8)) : Text :=
  headerLine "Date" (formatRfc2822Date mail.receivedDate) ++ newline ++
    headerLine "From" (formatAddress mail.sender) ++ newline ++
    headerLine "Subject" (encodeHeaderValue mail.subject.toList) ++ newline ++
    (match details with
      | some details =>
        addressHeaderLine "To" (details.recipients.toRecipients.map formatAddress) ++
          addressHeaderLine "Cc" (details.recipients.ccRecipients.map formatAddress) ++
          addressHeaderLine "Reply-To" ((replyToAddresses details).map fun replyTo =>
            formatNameAndAddress replyTo.1 replyTo.2)
      | none =>
        match mail.firstRecipient with
        | some first => headerLine "To" (formatAddress first) ++ newline
        | none => []) ++
    (match mail.id with
      | some id =>
        headerLine "Message-ID" ('<' :: (id.listId.toList ++ '.' :: (id.elementId.toList ++
          "@tutabridge.local>".toList))) ++ newline
      | none => []) ++
    headerLine "MIME-Version" "1.0".toList ++ newline ++
    messageContent mail details attachments

/-- `split_headers_body`. -/
def splitHeadersBody (raw : Text) : Text × Text :=
  let headers := headerSection raw
  let later := raw.drop headers.length
  let body :=
    if ['\r', '\n', '\r', '\n'].isPrefixOf later then later.drop 4
    else if ['\n', '\n'].isPrefixOf later then later.drop 2
    else []
  (headers, body)

/-! ## What is meant to be written -/

/-- The characters of Tuta's ids. -/
def isTutaId (id : String) : Bool := id.toList.all (· ∈ MailSetEntryId.base64Ext)

/-- A name of letters and hyphens. -/
def isFieldName (name : String) : Bool :=
  name.toList ≠ [] && name.toList.all fun char => char.isAlpha || char = '-'

/-- The header of a list with addresses in it. -/
def addressField (name : String) (addresses : List Text) : List (String × Text) :=
  if addresses = [] then [] else [(name, ", ".toList.intercalate addresses)]

/-- The Content-Type of a message. -/
def messageType (mail : Mail) (attachments : List (TutanotaFile × List UInt8)) : Text :=
  if attachments = [] then multipartType "alternative" (buildAltBoundary mail)
  else multipartType "mixed" (buildBoundary mail)

/-- The headers of a message, each with its value. -/
def messageFields (mail : Mail) (details : Option MailDetails)
    (attachments : List (TutanotaFile × List UInt8)) : List (String × Text) :=
  [("Date", formatRfc2822Date mail.receivedDate), ("From", formatAddress mail.sender),
    ("Subject", encodeHeaderValue mail.subject.toList)] ++
    (match details with
      | some details =>
        addressField "To" (details.recipients.toRecipients.map formatAddress) ++
          addressField "Cc" (details.recipients.ccRecipients.map formatAddress) ++
          addressField "Reply-To" ((replyToAddresses details).map fun replyTo =>
            formatNameAndAddress replyTo.1 replyTo.2)
      | none => (mail.firstRecipient.map fun first => ("To", formatAddress first)).toList) ++
    (mail.id.map fun id =>
      ("Message-ID", '<' :: (id.listId.toList ++ '.' :: (id.elementId.toList ++
        "@tutabridge.local>".toList)))).toList ++
    [("MIME-Version", "1.0".toList), ("Content-Type", messageType mail attachments)]

/-- The body of a message: the two texts of the mail, before them what a reader without
MIME shows and behind them the attachments, where there are any. -/
def messageBody (mail : Mail) (details : Option MailDetails)
    (attachments : List (TutanotaFile × List UInt8)) : Text :=
  let html := bodyText details
  let plain := htmlToText html
  if attachments = [] then alternativeParts (buildAltBoundary mail) plain html
  else
    "This is a multi-part message in MIME format.".toList ++ newline ++
      "--".toList ++ buildBoundary mail ++ newline ++
      pushAlternativeBody (buildAltBoundary mail) plain html ++
      attachments.flatMap (fun attachment =>
        attachmentPart (buildBoundary mail) attachment.1 attachment.2) ++
      "--".toList ++ buildBoundary mail ++ "--".toList ++ newline

section Written

variable {mail : Mail} {details : Option MailDetails}
  {attachments : List (TutanotaFile × List UInt8)}

/-- The lines of the headers. -/
def fieldLines (fields : List (String × Text)) : List Text :=
  fields.map fun field => headerLine field.1 field.2

theorem addressHeaderLine_eq (name : String) (addresses : List Text) : addressHeaderLine name addresses =
      (fieldLines (addressField name addresses)).flatMap fun line => line ++ newline := by
  unfold addressHeaderLine addressField
  split <;> simp [fieldLines]

theorem messageContent_eq : messageContent mail details attachments =
      headerLine "Content-Type" (messageType mail attachments) ++ newline ++ newline ++
        messageBody mail details attachments := by
  unfold messageContent messageType messageBody
  split
  · rfl
  · simp only [List.append_assoc]

theorem messageFields_ne_nil : messageFields mail details attachments ≠ [] := by
  simp [messageFields]

/-- A message is the lines of its headers, an empty line and its body. -/
theorem mailToRfc2822_eq : mailToRfc2822 mail details attachments =
      joinLines (fieldLines (messageFields mail details attachments)) ++ newline ++ newline ++
        messageBody mail details attachments := by
  have notEmpty : fieldLines (messageFields mail details attachments) ≠ [] := by
    simp [fieldLines, messageFields_ne_nil]
  have lines := flatMap_append_eq_intercalate notEmpty newline
  rw [joinLines, ← newline, ← lines]
  unfold mailToRfc2822 messageFields
  rw [messageContent_eq]
  cases details <;> cases mail.firstRecipient <;> cases mail.id <;>
    simp [fieldLines, addressHeaderLine_eq, newline]

end Written

/-! ## No value breaks its line -/

theorem unbroken_of_hasBreak {text : Text} (noBreak : hasBreak text = false) : Unbroken text := by
  rw [Unbroken.iff_forall]
  simpa [hasBreak] using noBreak

theorem solid_base64 (bytes : List UInt8) :
    ∀ char ∈ (Base64.encodePadded Base64.standard bytes).toList, isWhitespace char = false :=
  Base64.forall_mem_standard (by decide) (by decide) bytes

theorem ascii_base64 (bytes : List UInt8) :
    ∀ char ∈ (Base64.encodePadded Base64.standard bytes).toList, char.toNat < 128 :=
  Base64.forall_mem_standard (by decide) (by decide) bytes

theorem unbroken_base64 (bytes : List UInt8) : Unbroken (Base64.encodePadded Base64.standard bytes).toList :=
  Unbroken.of_solid (solid_base64 bytes)

theorem unbroken_encodeHeaderValue (text : Text) : Unbroken (encodeHeaderValue text) := by
  unfold encodeHeaderValue
  split
  next plain =>
    simp only [Bool.and_eq_true, Bool.not_eq_true'] at plain
    exact unbroken_of_hasBreak plain.2
  next => simpa using unbroken_base64 (Utf8.encode text)

/-- An address loses its white space, a quoted name has no line breaks and a name with line
breaks is encoded. -/
theorem unbroken_formatNameAndAddress (name address : Text) : Unbroken (formatNameAndAddress name address) := by
  have solid : Unbroken (address.filter fun char => !delimitsMailbox char) := by
    refine Unbroken.of_solid fun char mem => ?_
    have kept := (List.mem_filter.mp mem).2
    simp only [delimitsMailbox, Bool.not_eq_true', Bool.or_eq_false_iff] at kept
    exact kept.1
  unfold formatNameAndAddress
  dsimp only
  split
  · exact solid
  · split
    next quoted =>
      have plain : Unbroken name := by
        simp only [needsQuoting, Bool.and_eq_true, Bool.not_eq_true'] at quoted
        exact unbroken_of_hasBreak quoted.1.2
      have escaped : ∀ (mark : Char) (text : Text), mark ≠ '\r' ∧ mark ≠ '\n' → Unbroken text →
          Unbroken (text.flatMap fun char => if char = mark then ['\\', mark] else [char]) := by
        intro mark text visible unbroken
        rw [Unbroken.iff_forall] at unbroken ⊢
        intro char mem
        obtain ⟨original, inText, isPart⟩ := List.mem_flatMap.mp mem
        split at isPart
        · rcases List.mem_cons.mp isPart with rfl | isMark
          · decide
          · rwa [List.mem_singleton.mp isMark]
        · rw [List.mem_singleton.mp isPart]
          exact unbroken original inText
      have quotedName := escaped '"' _ (by decide) (escaped '\\' _ (by decide) plain)
      simp [quotedName, solid]
    next => simp [solid, unbroken_encodeHeaderValue]

theorem unbroken_getD {texts : List String} (plain : ∀ text ∈ texts, Unbroken text.toList)
    (index : Nat) : Unbroken (texts.getD index "").toList := by
  rw [List.getD_eq_getElem?_getD]
  cases found : texts[index]? with
  | none => simp
  | some text => exact plain text (List.mem_of_getElem? found)

theorem unbroken_padded (width value : Nat) : Unbroken (padded width value) := by
  rw [Unbroken.iff_forall]
  intro char mem
  refine ⟨?_, ?_⟩ <;> rintro rfl <;> exact absurd (mem_padded mem) (by decide)

theorem unbroken_formatRfc2822Date (millis : Nat) : Unbroken (formatRfc2822Date millis) := by
  have weekday := @unbroken_getD weekdays (by decide)
  have month := @unbroken_getD months (by decide)
  simp only [formatRfc2822Date, Unbroken.append_iff, Unbroken.cons_iff, unbroken_padded, true_and]
  exact ⟨⟨⟨weekday _, by decide⟩, trivial⟩, by decide, month _, by decide, by decide, by decide,
    by decide, by decide⟩

theorem unbroken_tutaId {id : String} (isId : isTutaId id = true) : Unbroken id.toList := by
  have digits : ∀ char ∈ MailSetEntryId.base64Ext, isWhitespace char = false := by decide
  refine Unbroken.of_solid fun char mem => digits char ?_
  simpa using List.all_eq_true.mp isId char mem

theorem unbroken_intercalate {separator : Text} {parts : List Text} (between : Unbroken separator)
    (solid : ∀ part ∈ parts, Unbroken part) : Unbroken (separator.intercalate parts) := by
  induction parts with
  | nil => simp
  | cons part rest ih =>
    obtain ⟨first, later⟩ := List.forall_mem_cons.mp solid
    cases rest with
    | nil => simpa using first
    | cons next rest =>
      simp only [List.intercalate_cons_cons, Unbroken.append_iff]
      exact ⟨⟨first, between⟩, ih later⟩

section Fields

variable {mail : Mail} {details : Option MailDetails}
  {attachments : List (TutanotaFile × List UInt8)}

/-- The ids of a mail are Tuta's. -/
def HasTutaIds (mail : Mail) : Prop :=
  ∀ id, mail.id = some id → isTutaId id.listId = true ∧ isTutaId id.elementId = true

theorem unbroken_messageType (ids : HasTutaIds mail) : Unbroken (messageType mail attachments) := by
  have boundaries : Unbroken (buildBoundary mail) ∧ Unbroken (buildAltBoundary mail) := by
    unfold buildBoundary buildAltBoundary
    cases known : mail.id with
    | none => decide
    | some id =>
      obtain ⟨list, element⟩ := ids id known
      simp [unbroken_tutaId list, unbroken_tutaId element]
  unfold messageType multipartType
  split <;> simp [boundaries]

theorem mem_addressField {name : String} {addresses : List Text} {field : String × Text}
    (mem : field ∈ addressField name addresses) :
    field = (name, ", ".toList.intercalate addresses) := by
  unfold addressField at mem
  split at mem
  · cases mem
  · exact List.mem_singleton.mp mem

/-- Every header has a name that is read as one, and a value on one line. -/
theorem solid_messageFields (ids : HasTutaIds mail) : ∀ field ∈ messageFields mail details attachments,
      isFieldName field.1 = true ∧ Unbroken field.2 := by
  have addresses : ∀ recipients : List MailAddress,
      Unbroken (", ".toList.intercalate (recipients.map formatAddress)) := by
    intro recipients
    refine unbroken_intercalate (by decide) fun part mem => ?_
    obtain ⟨recipient, -, rfl⟩ := List.mem_map.mp mem
    exact unbroken_formatNameAndAddress _ _
  intro field mem
  simp only [messageFields, List.mem_append] at mem
  rcases mem with ((leading | recipients) | messageId) | trailing
  · simp only [List.mem_cons, List.not_mem_nil, or_false] at leading
    rcases leading with rfl | rfl | rfl
    · exact ⟨(by decide : isFieldName "Date" = true), unbroken_formatRfc2822Date _⟩
    · exact ⟨(by decide : isFieldName "From" = true), unbroken_formatNameAndAddress _ _⟩
    · exact ⟨(by decide : isFieldName "Subject" = true), unbroken_encodeHeaderValue _⟩
  · cases details with
    | none =>
      obtain ⟨first, -, rfl⟩ := Option.map_eq_some_iff.mp (Option.mem_toList.mp recipients)
      exact ⟨(by decide : isFieldName "To" = true), unbroken_formatNameAndAddress _ _⟩
    | some details =>
      rcases List.mem_append.mp recipients with others | replyTo
      · rcases List.mem_append.mp others with inTo | inCc
        · rw [mem_addressField inTo]
          exact ⟨(by decide : isFieldName "To" = true), addresses _⟩
        · rw [mem_addressField inCc]
          exact ⟨(by decide : isFieldName "Cc" = true), addresses _⟩
      · rw [mem_addressField replyTo]
        refine ⟨(by decide : isFieldName "Reply-To" = true),
          unbroken_intercalate (by decide) fun part mem => ?_⟩
        obtain ⟨recipient, -, rfl⟩ := List.mem_map.mp mem
        exact unbroken_formatNameAndAddress _ _
  · obtain ⟨id, known, rfl⟩ := Option.map_eq_some_iff.mp (Option.mem_toList.mp messageId)
    obtain ⟨list, element⟩ := ids id known
    refine ⟨(by decide : isFieldName "Message-ID" = true), ?_⟩
    simp [unbroken_tutaId list, unbroken_tutaId element]
  · simp only [List.mem_cons, List.not_mem_nil, or_false] at trailing
    rcases trailing with rfl | rfl
    · exact ⟨(by decide : isFieldName "MIME-Version" = true), by decide⟩
    · exact ⟨(by decide : isFieldName "Content-Type" = true), unbroken_messageType ids⟩

end Fields

/-! ## What is read back -/

section Reading

variable {fields : List (String × Text)}

theorem solid_of_isFieldName {name : String} (isName : isFieldName name = true) :
    name.toList ≠ [] ∧ ∀ char ∈ name.toList, char.isAlpha = true ∨ char = '-' := by
  simp only [isFieldName, Bool.and_eq_true, decide_eq_true_eq, List.all_eq_true, Bool.or_eq_true] at isName
  exact isName

/-- A character of a name is ASCII and neither white space nor the colon behind the name. -/
theorem plain_of_mem_name {name : String} (isName : isFieldName name = true) {char : Char}
    (mem : char ∈ name.toList) :
    char.toNat < 128 ∧ isWhitespace char = false ∧ char ≠ ':' := by
  have kind := (solid_of_isFieldName isName).2 char mem
  have small : char.toNat < 128 := by
    rcases kind with letter | rfl
    · exact ascii_of_isAlphanum (by rw [Char.isAlphanum, letter, Bool.true_or])
    · decide
  have facts := @of_ascii (fun char => char.isAlpha = true ∨ char = '-' →
    isWhitespace char = false ∧ char ≠ ':') (by decide) char small
  exact ⟨small, facts kind⟩

/-- The line of a header ends the header before it. -/
theorem line_field (casing : Casing) (reader : HeaderReader) {name : Text} (notEmpty : name ≠ [])
    (plain : ∀ char ∈ name, isWhitespace char = false ∧ char ≠ ':') (value : Text) :
    reader.line casing (name ++ ':' :: value) = ⟨reader.finish casing, name, value⟩ := by
  obtain ⟨head, rest, split⟩ := List.exists_cons_of_ne_nil notEmpty
  have visible := (plain head (split ▸ List.mem_cons_self)).1
  have noFold : ¬ ((name ++ ':' :: value).head? = some ' ' ∨ (name ++ ':' :: value).head? = some '\t') := by
    rw [split]
    rintro (blank | tab)
    · rw [Option.some.inj blank] at visible
      exact absurd visible (by decide)
    · rw [Option.some.inj tab] at visible
      exact absurd visible (by decide)
  have noColon : ':' ∉ name := fun mem => (plain ':' mem).2 rfl
  have trimmed : trim name = name := trim_eq_self fun char mem => (plain char mem).1
  rw [HeaderReader.line, if_neg noFold, splitOnce_append noColon]
  simp only [trimmed]

theorem line_named (casing : Casing) (reader : HeaderReader) {name : String}
    (isName : isFieldName name = true) (value : Text) : reader.line casing (name.toList ++ ':' :: value) =
      ⟨reader.finish casing, name.toList, value⟩ :=
  line_field casing reader (solid_of_isFieldName isName).1
    (fun _ mem => (plain_of_mem_name isName mem).2) value

theorem line_headerLine (casing : Casing) (reader : HeaderReader) {name : String}
    (isName : isFieldName name = true) (value : Text) : reader.line casing (headerLine name value) =
      ⟨reader.finish casing, name.toList, ' ' :: value⟩ :=
  line_named casing reader isName (' ' :: value)

/-- The headers that lines are read as. -/
def readFields (fields : List (String × Text)) : List (Text × Text) :=
  fields.map fun field => (field.1.toList.map Char.toLower, trim field.2)

theorem foldl_fieldLines (casing : Casing) (named : ∀ field ∈ fields, isFieldName field.1 = true)
    (reader : HeaderReader) : ((fieldLines fields).foldl (HeaderReader.line casing) reader).finish casing =
      reader.finish casing ++ readFields fields := by
  induction fields generalizing reader with
  | nil => simp [fieldLines, readFields]
  | cons field rest ih =>
    obtain ⟨isName, named⟩ := List.forall_mem_cons.mp named
    have lower : casing.toLowercase field.1.toList = field.1.toList.map Char.toLower :=
      casing.toLowercase_ascii _ fun char mem => (plain_of_mem_name isName mem).1
    have trimmed : trim (' ' :: field.2) = trim field.2 := by
      rw [trim, List.dropWhile_cons_of_pos (by decide), trim]
    have step := ih named ⟨reader.finish casing, field.1.toList, ' ' :: field.2⟩
    rw [fieldLines, List.map_cons, List.foldl_cons, line_headerLine casing reader isName]
    rw [fieldLines] at step
    rw [step, HeaderReader.finish, if_neg (solid_of_isFieldName isName).1, lower, trimmed, List.append_assoc]
    rfl

theorem solid_fieldLines (solid : ∀ field ∈ fields, isFieldName field.1 = true ∧ Unbroken field.2) :
    ∀ line ∈ fieldLines fields, line ≠ [] ∧ Unbroken line := by
  intro line mem
  obtain ⟨field, inFields, rfl⟩ := List.mem_map.mp mem
  obtain ⟨isName, unbroken⟩ := solid field inFields
  have name : Unbroken field.1.toList :=
    Unbroken.of_solid fun char mem => (plain_of_mem_name isName mem).2.1
  exact ⟨by simp [headerLine], by simp [headerLine, name, unbroken]⟩

theorem headerSection_joinLines {lines : List Text} (solid : ∀ line ∈ lines, line ≠ [] ∧ Unbroken line)
    (body : Text) :
    headerSection (joinLines lines ++ newline ++ newline ++ body) = joinLines lines := by
  have emptyLine : joinLines lines ++ newline ++ newline ++ body =
      joinLines lines ++ ['\r', '\n', '\r', '\n'] ++ body := by
    simp [newline]
  rw [headerSection, emptyLine, before?_joinLines solid, Option.some_or, Option.getD_some]

theorem splitHeadersBody_joinLines {lines : List Text}
    (solid : ∀ line ∈ lines, line ≠ [] ∧ Unbroken line) (body : Text) :
    splitHeadersBody (joinLines lines ++ newline ++ newline ++ body) = (joinLines lines, body) := by
  have later : (joinLines lines ++ newline ++ newline ++ body).drop (joinLines lines).length =
      '\r' :: '\n' :: '\r' :: '\n' :: body := by
    rw [List.append_assoc, List.append_assoc, List.drop_left]
    rfl
  rw [splitHeadersBody, headerSection_joinLines solid, later]
  simp [List.isPrefixOf]

end Reading

/-! ## The headers of a name -/

/-- The fields without a name. -/
def Lacks (fields : List (String × Text)) (name : String) : Prop :=
  ∀ field ∈ fields, field.1.toList.map Char.toLower ≠ name.toList

namespace Lacks

variable {first second : List (String × Text)} {name header : String}

theorem append (one : Lacks first name) (two : Lacks second name) : Lacks (first ++ second) name :=
  fun field mem => (List.mem_append.mp mem).elim (one field) (two field)

theorem addressField (different : header.toList.map Char.toLower ≠ name.toList)
    (addresses : List Text) : Lacks (addressField header addresses) name := by
  intro field mem
  rw [mem_addressField mem]
  exact different

end Lacks

theorem getHeader_append {before after : List (String × Text)} {name : String} (lacks : Lacks before name) :
    getHeader (readFields (before ++ after)) name = getHeader (readFields after) name := by
  have notFound : (readFields before).find? (fun header => header.1 = name.toList) = none := by
    rw [List.find?_eq_none]
    intro header mem
    obtain ⟨field, inFields, rfl⟩ := List.mem_map.mp mem
    simpa using lacks field inFields
  rw [getHeader, readFields, List.map_append, List.find?_append]
  rw [readFields] at notFound
  rw [notFound, Option.none_or, getHeader, readFields]

theorem getHeader_none {fields : List (String × Text)} {name : String} (lacks : Lacks fields name) :
    getHeader (readFields fields) name = none := by
  have appended := @getHeader_append fields [] name lacks
  rw [List.append_nil] at appended
  exact appended

/-- The first field of a name is the one that is read. -/
theorem getHeader_cons_self {written name : String} {value : Text} {later : List (String × Text)}
    (named : written.toList.map Char.toLower = name.toList) :
    getHeader (readFields ((written, value) :: later)) name = some (trim value) := by
  rw [getHeader, readFields, List.map_cons, List.find?_cons_of_pos (by simpa using named)]
  rfl

theorem getHeader_cons_of_ne {written name : String} {value : Text} {later : List (String × Text)}
    (other : written.toList.map Char.toLower ≠ name.toList) :
    getHeader (readFields ((written, value) :: later)) name = getHeader (readFields later) name := by
  rw [getHeader, readFields, List.map_cons, List.find?_cons_of_neg (by simpa using other)]
  rfl

section Message

variable {mail : Mail}

theorem solid_messageLines (ids : HasTutaIds mail) (details : Option MailDetails)
    (attachments : List (TutanotaFile × List UInt8)) :
    ∀ line ∈ fieldLines (messageFields mail details attachments), line ≠ [] ∧ Unbroken line :=
  solid_fieldLines (solid_messageFields ids)

theorem headerSection_mailToRfc2822 (ids : HasTutaIds mail) (details : Option MailDetails)
    (attachments : List (TutanotaFile × List UInt8)) : headerSection (mailToRfc2822 mail details attachments) =
      joinLines (fieldLines (messageFields mail details attachments)) := by
  rw [mailToRfc2822_eq]
  exact headerSection_joinLines (solid_messageLines ids details attachments) _

theorem parseHeaders_mailToRfc2822 (casing : Casing) (ids : HasTutaIds mail)
    (details : Option MailDetails) (attachments : List (TutanotaFile × List UInt8)) :
    parseHeaders casing (headerSection (mailToRfc2822 mail details attachments)) =
      readFields (messageFields mail details attachments) := by
  have named : ∀ field ∈ messageFields mail details attachments, isFieldName field.1 = true :=
    fun field mem => (solid_messageFields ids field mem).1
  rw [headerSection_mailToRfc2822 ids, parseHeaders,
    lines_joinLines (solid_messageLines ids details attachments)]
  exact foldl_fieldLines casing named ⟨[], [], []⟩

end Message

/-- Whatever a mail says, its message has the headers that are meant, each on one line, and its
body behind them. -/
theorem mailToRfc2822_headers (casing : Casing) {mail : Mail} (ids : HasTutaIds mail)
    (details : Option MailDetails) (attachments : List (TutanotaFile × List UInt8)) :
    let raw := mailToRfc2822 mail details attachments
    let fields := messageFields mail details attachments
    parseHeaders casing (headerSection raw) = readFields fields ∧
      headerSection raw = joinLines (fieldLines fields) ∧
      (∀ line ∈ fieldLines fields, Unbroken line) ∧
      Text.lines (headerSection raw) = fieldLines fields ∧
      splitHeadersBody raw = (joinLines (fieldLines fields), messageBody mail details attachments) := by
  intro raw fields
  have solid := solid_messageLines ids details attachments
  have isSection := headerSection_mailToRfc2822 ids details attachments
  refine ⟨parseHeaders_mailToRfc2822 casing ids details attachments, isSection,
    fun line mem => (solid line mem).2, ?_, ?_⟩
  · rw [isSection, lines_joinLines solid]
  · have isRaw : raw = joinLines (fieldLines fields) ++ newline ++ newline ++
        messageBody mail details attachments := mailToRfc2822_eq
    rw [isRaw]
    exact splitHeadersBody_joinLines solid _

/-- A mail whose sender and subject try to write headers of their own. -/
def forgedMail : Mail where
  id := some ⟨"list", "mail"⟩
  subject := "Hi\r\nBcc: all@example.org\r\n\r\nNo headers"
  sender := ⟨"Eve\nX-Trusted: yes", "eve@example.org\r\nX-Trusted: yes"⟩
  receivedDate := 1709210096000
  unread := true
  attachments := []

theorem mailToRfc2822_headers_forged : HasTutaIds forgedMail ∧
      parseHeaders .ascii (headerSection (mailToRfc2822 forgedMail none [])) =
        readFields (messageFields forgedMail none []) := by
  have ids : HasTutaIds forgedMail := by
    rintro id ⟨⟩
    decide
  exact ⟨ids, (mailToRfc2822_headers .ascii ids none []).1⟩

example : (messageFields forgedMail none []).map Prod.fst =
    ["Date", "From", "Subject", "Message-ID", "MIME-Version", "Content-Type"] := by decide

end TutaBridge.Mail
