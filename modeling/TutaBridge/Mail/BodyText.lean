import TutaBridge.Mail.MailParts
import TutaBridge.Std.Slices

/-!
# The text that is indexed

A body is indexed as the words of its HTML. One path has the HTML at hand; the other has the
message it was rendered to and finds the part again by the first `text/html` in the message. That
is looked for in the message in lower case, and its byte position is taken for one in the message.
-/

namespace TutaBridge.Mail

open TutaBridge.Std TutaBridge.Std.Text Tuta

/-! ## Markup -/

/-- The name of a tag as far as `strip_html` looks at it: six characters, in lower case. -/
def peekTag (rest : Text) : Text :=
  ((rest.take 6).takeWhile fun char => !(char = '>' || isWhitespace char)).map Char.toLower

/-- A tag whose block `strip_html` skips. -/
def skipsBlock (tag : Text) : Bool :=
  (["script", "style"].any fun name => tag.dropWhile (· = '/') = name.toList) && !isClosingTag tag

/-- The loop of `strip_html`. Every tag becomes a blank, one that is not closed too. -/
def stripMarkup : Scan → Text → Text
  | .text, [] => []
  | .tag _, [] => [' ']
  | .hidden _ _, [] => [' ']
  | .closing, [] => [' ']
  | .text, char :: rest =>
    if char = '<' then stripMarkup (.tag (peekTag rest)) rest else char :: stripMarkup .text rest
  | .tag tag, char :: rest =>
    if char = '>' then
      if skipsBlock tag then stripMarkup (.hidden ('<' :: '/' :: tag) []) rest
      else ' ' :: stripMarkup .text rest
    else stripMarkup (.tag tag) rest
  | .hidden close window, char :: rest =>
    let window := window ++ [char.toLower]
    if close.isSuffixOf window then stripMarkup .closing rest
    else stripMarkup (.hidden close window) rest
  | .closing, char :: rest =>
    if char = '>' then ' ' :: stripMarkup .text rest else stripMarkup .closing rest

/-- `strip_html`. -/
def stripHtml (html : Text) : Text :=
  [' '].intercalate (words (decodeEntities (stripMarkup .text html)))

example : stripHtml "<style>p</style><b>Visible</b>".toList = "Visible".toList := by decide +kernel

/-! ## Finding the part -/

/-- A blank line between the head of a part and its body. -/
def blankLine : Text := ['\r', '\n', '\r', '\n']

/-- The text of a part, from some place in its head on: what stands behind the next blank line and
before the next delimiter, decoded. -/
def textBehind (behind : Text) : Text :=
  match before? blankLine behind with
  | none => []
  | some head =>
    let body := behind.drop (head.length + blankLine.length)
    let raw := (before? "\r\n--".toList body).getD body
    match decodeBase64Lines raw with
    | some bytes => stripHtml (Utf8.decodeLossy bytes)
    | none => stripHtml raw

/-- `extract_body_text`, where the slice it takes can be taken. -/
def extractBodyText (casing : Casing) (rfc : Text) : Option Text :=
  let lower := casing.toLowercase rfc
  match (find "text/html".toList lower).or (find "text/plain".toList lower) with
  | none => some []
  | some partStart => (sliceFrom? partStart rfc).map textBehind

/-! ## The part of a message -/

/-- A body is read back from the text it is written as. -/
theorem decodeBase64Lines_base64EncodeBody (data : List UInt8) :
    decodeBase64Lines (base64EncodeBody data) = some data := by
  have rows : ∀ lines : List Text,
      (lines.flatMap fun row => row ++ newline).filter (fun char => !isWhitespace char) =
        (feedLines lines).filter fun char => !isWhitespace char := by
    intro lines
    induction lines with
    | nil => rfl
    | cons row rest ih =>
      have breaks : newline.filter (fun char => !isWhitespace char) =
          ['\n'].filter fun char => !isWhitespace char := by decide
      rw [List.flatMap_cons, List.filter_append, List.filter_append, ih, breaks,
        feedLines_cons, List.filter_append, List.append_assoc, ← List.filter_append]
      rfl
  have whole := rows (bodyRows data)
  have noBreak : newline.filter (fun char => !isWhitespace char) = [] := by decide
  rw [← base64EncodeBody_newline, List.filter_append, noBreak, List.append_nil] at whole
  have read := decodeBase64Lines_bodyRows data
  rw [decodeBase64Lines, ← whole] at read
  exact read

theorem hyphen_not_mem_base64EncodeBody (data : List UInt8) : '-' ∉ base64EncodeBody data := by
  intro mem
  have inRows : '-' ∈ base64EncodeBody data ++ newline := List.mem_append_left _ mem
  rw [base64EncodeBody_newline] at inRows
  obtain ⟨row, isRow, inRow⟩ := List.mem_flatMap.mp inRows
  have inRow : '-' ∈ row := (List.mem_append.mp inRow).resolve_right (by decide)
  unfold bodyRows at isRow
  dsimp only at isRow
  split at isRow
  · rw [List.mem_singleton.mp isRow] at inRow
    cases inRow
  · exact hyphen_not_mem_base64 data (mem_of_mem_chunks (by decide) isRow inRow)

/-- The type of the HTML part and the rest of its head. -/
def htmlType : Text := "text/html; charset=UTF-8\r\nContent-Transfer-Encoding: base64".toList

/-- What a message has before the texts of its mail. -/
def beforeTexts (mail : Mail) (details : Option MailDetails)
    (attachments : List (TutanotaFile × List UInt8)) : Text :=
  joinLines (fieldLines (messageFields mail details attachments)) ++ newline ++ newline ++
    if attachments = [] then []
    else
      "This is a multi-part message in MIME format.".toList ++ newline ++
        "--".toList ++ buildBoundary mail ++ newline ++
        headerLine "Content-Type" (multipartType "alternative" (buildAltBoundary mail)) ++ newline ++
        newline

/-- What the texts of a mail have before the type of the HTML part. -/
def textsBeforeHtml (boundary plain : Text) : Text :=
  "--".toList ++ boundary ++ newline ++ textPartHeaders "plain" ++
    base64EncodeBody (Utf8.encode plain) ++ newline ++
    "--".toList ++ boundary ++ newline ++ "Content-Type: ".toList

/-- What a message has before the type of its HTML part. -/
def beforeHtmlType (mail : Mail) (details : Option MailDetails)
    (attachments : List (TutanotaFile × List UInt8)) : Text :=
  beforeTexts mail details attachments ++
    textsBeforeHtml (buildAltBoundary mail) (htmlToText (bodyText details))

/-- The texts are cut at the head and at the end of the HTML part. -/
theorem alternativeParts_eq_html (boundary plain html : Text) : alternativeParts boundary plain html =
      textsBeforeHtml boundary plain ++ htmlType ++ blankLine ++ (base64EncodeBody (Utf8.encode html) ++
          (newline ++ "--".toList ++ (boundary ++ "--".toList ++ newline))) := by
  have isHead : textPartHeaders "html" = "Content-Type: ".toList ++ htmlType ++ blankLine := by
    decide +kernel
  unfold alternativeParts textsBeforeHtml
  rw [isHead]
  -- the words written are the same on both sides and need not be looked at
  generalize "--".toList = hyphens
  generalize "Content-Type: ".toList = name
  generalize textPartHeaders "plain" = plainHead
  simp only [List.append_assoc]

theorem mailToRfc2822_eq_texts (mail : Mail) (details : Option MailDetails)
    (attachments : List (TutanotaFile × List UInt8)) : ∃ behind, mailToRfc2822 mail details attachments =
      beforeTexts mail details attachments ++
        (alternativeParts (buildAltBoundary mail) (htmlToText (bodyText details)) (bodyText details) ++ behind) := by
  rw [mailToRfc2822_eq, messageBody, beforeTexts]
  by_cases noAttachments : attachments = []
  · refine ⟨[], ?_⟩
    rw [if_pos noAttachments, if_pos noAttachments, List.append_nil, List.append_nil]
  · refine ⟨attachments.flatMap (fun attachment =>
        attachmentPart (buildBoundary mail) attachment.1 attachment.2) ++
      "--".toList ++ buildBoundary mail ++ "--".toList ++ newline, ?_⟩
    rw [if_neg noAttachments, if_neg noAttachments, pushAlternativeBody]
    generalize "--".toList = hyphens
    generalize "This is a multi-part message in MIME format.".toList = preamble
    simp only [List.append_assoc]

/-- A message is cut at the head and at the end of its HTML part. -/
theorem mailToRfc2822_eq_html (mail : Mail) (details : Option MailDetails)
    (attachments : List (TutanotaFile × List UInt8)) :
    ∃ behind, mailToRfc2822 mail details attachments =
      beforeHtmlType mail details attachments ++ htmlType ++ blankLine ++
        (base64EncodeBody (Utf8.encode (bodyText details)) ++ (newline ++ "--".toList ++ behind)) := by
  obtain ⟨behind, isMessage⟩ := mailToRfc2822_eq_texts mail details attachments
  refine ⟨buildAltBoundary mail ++ "--".toList ++ newline ++ behind, ?_⟩
  rw [isMessage, alternativeParts_eq_html, beforeHtmlType]
  generalize "--".toList = hyphens
  simp only [List.append_assoc]

/-- The text of a part is found from any place in its head. -/
theorem textBehind_append {between : Text} (noBlank : ¬ blankLine <:+: between ++ blankLine.dropLast)
    (data : List UInt8) (behind : Text) :
    textBehind (between ++ blankLine ++ (base64EncodeBody data ++ (newline ++ "--".toList ++ behind))) =
      stripHtml (Utf8.decodeLossy data) := by
  have isHead := before?_append_self noBlank (base64EncodeBody data ++ (newline ++ "--".toList ++ behind))
  have isBody : before? "\r\n--".toList (base64EncodeBody data ++ (newline ++ "--".toList ++ behind)) =
      some (base64EncodeBody data) := by
    have found := before?_word (by decide : '-' ∉ ['\r', '\n']) (hyphen_not_mem_base64EncodeBody data)
      ['-'] behind
    simpa [newline] using found
  have dropped : (between ++ blankLine ++ (base64EncodeBody data ++ (newline ++ "--".toList ++ behind))).drop
      (between.length + blankLine.length) = base64EncodeBody data ++ (newline ++ "--".toList ++ behind) := by
    rw [← List.length_append, List.drop_left]
  rw [textBehind, isHead]
  dsimp only
  rw [dropped, isBody, Option.getD_some, decodeBase64Lines_base64EncodeBody]

/-- The first `text/html` of the message in lower case has the position of a place in the message
from which the next blank line is the one under the head of the HTML part. -/
def ReachesHtml (casing : Casing) (mail : Mail) (details : Option MailDetails)
    (attachments : List (TutanotaFile × List UInt8)) : Prop :=
  ∃ front between, beforeHtmlType mail details attachments ++ htmlType = front ++ between ∧
    ¬ blankLine <:+: between ++ blankLine.dropLast ∧
    IsFirst "text/html".toList (byteLength front)
      (casing.toLowercase (mailToRfc2822 mail details attachments))

theorem noBlank_htmlType : ¬ blankLine <:+: htmlType ++ blankLine.dropLast :=
  before?_eq_none_iff.mp (by decide +kernel)

/-- The HTML part of an ASCII message is reached where its type is the first one named. -/
theorem reachesHtml_of_ascii (casing : Casing) {mail : Mail} {details : Option MailDetails}
    {attachments : List (TutanotaFile × List UInt8)}
    (ascii : ∀ char ∈ mailToRfc2822 mail details attachments, char.toNat < 128)
    (absent : ¬ "text/html".toList <:+:
      (beforeHtmlType mail details attachments).map Char.toLower ++ "text/htm".toList) :
    ReachesHtml casing mail details attachments := by
  obtain ⟨behind, isMessage⟩ := mailToRfc2822_eq_html mail details attachments
  obtain ⟨rest, isType⟩ : ∃ rest, htmlType.map Char.toLower = "text/html".toList ++ rest :=
    ⟨"; charset=utf-8\r\ncontent-transfer-encoding: base64".toList, by decide +kernel⟩
  have isLower := casing.toLowercase_ascii _ ascii
  have inFront : ∀ char ∈ beforeHtmlType mail details attachments, char.toNat < 128 := by
    intro char mem
    refine ascii char ?_
    rw [isMessage, List.append_assoc, List.append_assoc]
    exact List.mem_append_left _ mem
  have lowered : ∀ char ∈ (beforeHtmlType mail details attachments).map Char.toLower, char.toNat < 128 := by
    intro char mem
    obtain ⟨capital, isCapital, rfl⟩ := List.mem_map.mp mem
    exact @of_ascii (fun char => char.toLower.toNat < 128) (by decide) capital (inFront capital isCapital)
  refine ⟨_, htmlType, rfl, noBlank_htmlType, find_eq_some_iff.mp ?_⟩
  rw [isLower, isMessage, List.map_append, List.map_append, List.map_append, isType, ← List.append_assoc,
    List.append_assoc, List.append_assoc, find, before?_append_self absent, Option.map_some,
    byteLength_ascii lowered, byteLength_ascii inFront, List.length_map]

/-- The text of a message whose HTML part is reached is that of the body. -/
theorem extractBodyText_mailToRfc2822 (casing : Casing) {mail : Mail} {details : MailDetails}
    {attachments : List (TutanotaFile × List UInt8)}
    (hasBody : (details.body.compressedText.or details.body.text).isSome = true)
    (reaches : ReachesHtml casing mail (some details) attachments) :
    extractBodyText casing (mailToRfc2822 mail (some details) attachments) =
      some (stripHtml details.bodyHtml.toList) := by
  obtain ⟨html, isHtml⟩ := Option.isSome_iff_exists.mp hasBody
  obtain ⟨front, between, isFront, noBlank, isFirst⟩ := reaches
  obtain ⟨behind, isMessage⟩ := mailToRfc2822_eq_html mail (some details) attachments
  have isBody : bodyText (some details) = details.bodyHtml.toList := by
    rw [bodyText, Option.bind_some, isHtml, Option.map_some, Option.getD_some, MailDetails.bodyHtml,
      isHtml, Option.getD_some]
  rw [isFront, List.append_assoc, List.append_assoc] at isMessage
  rw [extractBodyText]
  rw [find_eq_some_iff.mpr isFirst, Option.some_or]
  dsimp only
  rw [isMessage, sliceFrom?_append, Option.map_some, ← List.append_assoc between, textBehind_append noBlank,
    Utf8.decodeLossy_encode, isBody]

def noteMail (subject : String) : Mail where
  id := some ⟨"list", "note"⟩
  subject := subject
  sender := ⟨"Jane", "jane@example.org"⟩
  receivedDate := 1709210096000
  unread := true
  attachments := []

def noteDetails : MailDetails where
  body := { compressedText := none, text := some "<p>Hello</p>" }

def noteFile : TutanotaFile := ⟨"page.html", some "text/html", none⟩

/-- The type of a file that is sent with a mail stands behind the HTML part. -/
theorem extractBodyText_note :
    ReachesHtml .ascii (noteMail "Hello") (some noteDetails) [(noteFile, [60, 62])] ∧
      extractBodyText .ascii (mailToRfc2822 (noteMail "Hello") (some noteDetails) [(noteFile, [60, 62])]) =
        some (stripHtml noteDetails.bodyHtml.toList) := by
  have reaches : ReachesHtml .ascii (noteMail "Hello") (some noteDetails) [(noteFile, [60, 62])] :=
    reachesHtml_of_ascii .ascii (by decide +kernel) (before?_eq_none_iff.mp (by decide +kernel))
  exact ⟨reaches, extractBodyText_mailToRfc2822 .ascii rfl reaches⟩

/-- A subject stands before the parts. -/
theorem extractBodyText_subject : noteDetails.body.text = some "<p>Hello</p>" ∧
      extractBodyText .ascii (mailToRfc2822 (noteMail "text/html") (some noteDetails) []) ≠
        some (stripHtml noteDetails.bodyHtml.toList) :=
  ⟨rfl, by decide +kernel⟩

end TutaBridge.Mail
