import TutaBridge.Mail.EncodedWords
import TutaBridge.Mail.Rendering

/-!
# The parts of a message

`parse_rfc2822` as far as the body goes. A multipart body is cut at its boundary into parts
of lines, a part in several parts is read in turn, and the texts and attachments that are
found are put together. A body where no text is found is given back as it stands.
-/

namespace TutaBridge.Mail

open TutaBridge.Std TutaBridge.Std.Text

/-! ## Parameters -/

/-- The value behind the first occurrence of a needle, which is written in lower case, in
quotes or up to white space or a semicolon. The source cuts the header where its lower case has
the needle, which is the same place as long as lower case changes no character's length. -/
def parameterValue (casing : Casing) (needle header : Text) : Option Text :=
  (before? needle (casing.toLowercase header)).bind fun before =>
    let rest := header.drop (before.length + needle.length)
    let value :=
      if rest.head? = some '"' then rest.tail.takeWhile (· ≠ '"')
      else rest.takeWhile fun char => !(isWhitespace char || char = ';')
    if value = [] then none else some value

/-- `extract_boundary`. -/
def extractBoundary (casing : Casing) (contentType : Text) : Option Text :=
  parameterValue casing "boundary=".toList contentType

/-- `extract_param`. -/
def extractParam (casing : Casing) (header : Text) (key : String) : Option Text :=
  parameterValue casing (casing.toLowercase key.toList ++ ['=']) header

/-! ## Lines of parts -/

/-- `trim_start_matches("\r\n")`. -/
def trimStartCrlf : Text → Text
  | '\r' :: '\n' :: rest => trimStartCrlf rest
  | text => text

/-- A part that is done, if lines were read of it. -/
def finishPart (inPart : Bool) (current : Text) : List Text :=
  if inPart && current ≠ [] then [(trimStartCrlf current).dropWhile (· = '\n')] else []

/-- The loop of `split_mime_parts`. -/
def mimePartsFrom (boundary : Text) (inPart : Bool) (current : Text) : List Text → List Text
  | [] => []
  | line :: rest =>
    if ("--".toList ++ boundary ++ "--".toList).isPrefixOf line then finishPart inPart current
    else if ("--".toList ++ boundary).isPrefixOf line then
      finishPart inPart current ++ mimePartsFrom boundary true [] rest
    else if inPart then mimePartsFrom boundary inPart (current ++ line ++ ['\n']) rest
    else mimePartsFrom boundary inPart current rest

/-- `split_mime_parts`. -/
def splitMimeParts (body boundary : Text) : List Text :=
  mimePartsFrom boundary false [] (Text.lines body)

/-! ## Transfer encodings -/

/-- The loop of `decode_quoted_printable`. -/
def decodeQuotedPrintableBytes : List UInt8 → List UInt8
  | [] => []
  | [byte] => [byte]
  | [byte, last] =>
    if byte = 61 then if last = 10 then [] else [61, last]
    else byte :: decodeQuotedPrintableBytes [last]
  | byte :: first :: second :: rest =>
    if byte = 61 then
      if first = 13 ∧ second = 10 then decodeQuotedPrintableBytes rest
      else if first = 10 then decodeQuotedPrintableBytes (second :: rest)
      else (hexByte? first second).toList ++ decodeQuotedPrintableBytes rest
    else byte :: decodeQuotedPrintableBytes (first :: second :: rest)

/-- `decode_quoted_printable`. -/
def decodeQuotedPrintable (text : Text) : Text :=
  Utf8.decodeLossy (decodeQuotedPrintableBytes (Utf8.encode text))

/-- The bytes of a base64 text with line breaks. -/
def decodeBase64Lines (text : Text) : Option (List UInt8) :=
  Base64.decodePadded Base64.standard (text.filter fun char => !isWhitespace char)

/-- `decode_transfer`. -/
def decodeTransfer (body encoding : Text) : Text :=
  if contains encoding "base64".toList then
    ((decodeBase64Lines body).map Utf8.decodeLossy).getD body
  else if contains encoding "quoted-printable".toList then decodeQuotedPrintable body
  else body

/-- The bytes of an attachment. -/
def decodeAttachment (body encoding : Text) : List UInt8 :=
  if contains encoding "base64".toList then (decodeBase64Lines body).getD []
  else if contains encoding "quoted-printable".toList then Utf8.encode (decodeQuotedPrintable body)
  else Utf8.encode body

/-- `html_escape`. -/
def htmlEscape (text : Text) : Text :=
  replace ['>'] "&gt;".toList (replace ['<'] "&lt;".toList (replace ['&'] "&amp;".toList text))

/-- `wrap_plain_as_html`. -/
def wrapPlainAsHtml (decoded contentType : Text) : Text :=
  if contains contentType "text/plain".toList && !contains contentType "text/html".toList then
    "<pre>".toList ++ htmlEscape decoded ++ "</pre>".toList
  else decoded

/-! ## Parts -/

/-- `Attachment`. -/
structure Attachment where
  filename : Text
  mimeType : Text
  data : List UInt8
deriving DecidableEq, Repr

/-- The variables of `extract_multipart_body_and_attachments`. -/
structure PartsRead where
  htmlPart : Option Text
  textPart : Option Text
  attachments : List Attachment
deriving DecidableEq, Repr

/-- What is found in a body: the HTML to show, the attachments and the plain text, where the
HTML was made of it. -/
structure BodyRead where
  bodyHtml : Text
  attachments : List Attachment
  bodyText : Option Text
deriving DecidableEq, Repr

/-- What the loop makes of a part in several parts. -/
def PartsRead.nested (read : PartsRead) (body : BodyRead) : PartsRead :=
  { htmlPart :=
      if body.bodyText = none ∧ read.htmlPart = none ∧ body.bodyHtml ≠ [] then some body.bodyHtml
      else read.htmlPart
    textPart := read.textPart.or body.bodyText
    attachments := read.attachments ++ body.attachments }

/-- The end of `extract_multipart_body_and_attachments`. -/
def PartsRead.finish (read : PartsRead) (body : Text) : BodyRead :=
  match read.htmlPart, read.textPart with
  | some html, _ => ⟨html, read.attachments, none⟩
  | none, some raw => ⟨wrapPlainAsHtml raw "text/plain".toList, read.attachments, some raw⟩
  | none, none => ⟨body, read.attachments, none⟩

section Reading

variable (casing : Casing)

/-- A header's value in lower case, the empty text where the header is missing. -/
def lowerHeader (headers : List (Text × Text)) (name : String) : Text :=
  casing.toLowercase ((getHeader headers name).getD [])

/-- Whether a part is an attachment. -/
def isAttachment (headers : List (Text × Text)) : Bool :=
  contains (lowerHeader casing headers "content-disposition") "attachment".toList ||
    ((extractParam casing ((getHeader headers "content-type").getD []) "name").isSome &&
      !contains (lowerHeader casing headers "content-type") "text/".toList)

/-- The attachment of a part. -/
def attachmentOf (headers : List (Text × Text)) (body : Text) : Attachment :=
  let contentType := (getHeader headers "content-type").getD []
  let filename := (((extractParam casing ((getHeader headers "content-disposition").getD [])
    "filename").or (extractParam casing contentType "name")).getD "attachment.bin".toList)
  let mimeType := casing.toLowercase (trim (contentType.takeWhile (· ≠ ';')))
  { filename := decodeHeaderValue casing filename
    mimeType := if mimeType = [] then "application/octet-stream".toList else mimeType
    data := decodeAttachment body (lowerHeader casing headers "content-transfer-encoding") }

/-- The loop body of `extract_multipart_body_and_attachments`, with the function for a part in
several parts. -/
def readPart (extract : Text → Text → BodyRead) (read : PartsRead) (part : Text) : PartsRead :=
  let headers := parseHeaders casing (splitHeadersBody part).1
  let body := (splitHeadersBody part).2
  let contentType := (getHeader headers "content-type").getD []
  let lower := lowerHeader casing headers "content-type"
  let encoding := lowerHeader casing headers "content-transfer-encoding"
  if contains lower "multipart/".toList then read.nested (extract body contentType)
  else if isAttachment casing headers then
    { read with attachments := read.attachments ++ [attachmentOf casing headers body] }
  else if contains lower "text/html".toList ∧ read.htmlPart = none then
    { read with htmlPart := some (decodeTransfer body encoding) }
  else if contains lower "text/plain".toList ∧ read.htmlPart = none ∧ read.textPart = none then
    { read with textPart := some (decodeTransfer body encoding) }
  else read

/-- `extract_multipart_body_and_attachments`. A part is shorter than the body it is cut from,
so more fuel than the body is long is never used up. -/
def extractMultipart : Nat → Text → Text → BodyRead
  | 0, body, _ => ⟨body, [], none⟩
  | fuel + 1, body, contentType =>
    match extractBoundary casing contentType with
    | none => ⟨body, [], none⟩
    | some boundary =>
      ((splitMimeParts body boundary).foldl (readPart casing (extractMultipart fuel))
        ⟨none, none, []⟩).finish body

/-- The body of `parse_rfc2822`. -/
def parseBody (raw : Text) : BodyRead :=
  let headers := parseHeaders casing (splitHeadersBody raw).1
  let body := (splitHeadersBody raw).2
  let contentType := (getHeader headers "content-type").getD []
  let lower := casing.toLowercase contentType
  if contains lower "multipart/".toList then extractMultipart casing (body.length + 1) body contentType
  else
    let isPlaintext := lower = [] ∨ contains lower "text/plain".toList
    let decoded := decodeTransfer body (lowerHeader casing headers "content-transfer-encoding")
    ⟨wrapPlainAsHtml decoded lower, [], if isPlaintext then some decoded else none⟩

/-- The attachments are those of the parts, whatever text is shown. -/
theorem finish_attachments (read : PartsRead) (body : Text) : (read.finish body).attachments = read.attachments := by
  unfold PartsRead.finish
  split <;> rfl

/-! ## Parameters in quotes -/

/-- A pattern with a sign in it is first found around the first such sign. -/
theorem before?_word {sign : Char} {word before : Text} (notInWord : sign ∉ word)
    (notBefore : sign ∉ before) (tail rest : Text) :
    before? (word ++ sign :: tail) (before ++ word ++ sign :: (tail ++ rest)) = some before := by
  have isText : before ++ word ++ sign :: (tail ++ rest) = before ++ (word ++ sign :: tail ++ rest) := by
    simp
  rw [isText]
  induction before with
  | nil =>
    obtain ⟨head, later, split⟩ := List.exists_cons_of_ne_nil
      (List.append_ne_nil_of_right_ne_nil word (List.cons_ne_nil sign tail))
    rw [List.nil_append, split]
    exact before?_match later head
  | cons head later ih =>
    have noMatch : (word ++ sign :: tail).isPrefixOf (head :: (later ++ (word ++ sign :: tail ++ rest))) =
        false := by
      rw [← Bool.not_eq_true, List.isPrefixOf_iff_prefix]
      intro begins
      have upToSign : word ++ [sign] <+: head :: (later ++ (word ++ sign :: tail ++ rest)) :=
        List.IsPrefix.trans ⟨tail, by simp⟩ begins
      have earlier : head :: later ++ word <+: head :: (later ++ (word ++ sign :: tail ++ rest)) :=
        ⟨sign :: (tail ++ rest), by simp⟩
      have inside := List.prefix_of_prefix_length_le upToSign earlier (by simp)
      have mem := inside.subset (List.mem_append_right word List.mem_cons_self)
      exact (List.mem_append.mp mem).elim notBefore notInWord
    have behind := ih (not_or.mp (mt List.mem_cons.mpr notBefore)).2 (by simp)
    rw [List.cons_append, before?, noMatch, if_neg (by decide), behind]
    rfl

/-- The value in quotes behind the first equals sign of a header ends at the next quote. -/
theorem parameterValue_quote {before word value behind : Text}
    (asciiBefore : ∀ char ∈ before, char.toNat < 128) (notBefore : '=' ∉ before)
    (isWord : word.map Char.toLower = word ∧ (∀ char ∈ word, char.toNat < 128) ∧ '=' ∉ word)
    (ascii : ∀ char ∈ value ++ '"' :: behind, char.toNat < 128) (noQuote : '"' ∉ value) :
    parameterValue casing (word ++ ['=']) (before ++ word ++ '=' :: '"' :: (value ++ '"' :: behind)) =
      if value = [] then none else some value := by
  obtain ⟨lowerWord, asciiWord, notInWord⟩ := isWord
  have asciiHeader : ∀ char ∈ before ++ word ++ '=' :: '"' :: (value ++ '"' :: behind), char.toNat < 128 :=
    List.forall_mem_append.mpr ⟨List.forall_mem_append.mpr ⟨asciiBefore, asciiWord⟩,
      List.forall_mem_cons.mpr ⟨by decide, List.forall_mem_cons.mpr ⟨by decide, ascii⟩⟩⟩
  have lower := casing.toLowercase_ascii _ asciiHeader
  have notLower : '=' ∉ before.map Char.toLower := by
    intro mem
    obtain ⟨char, inBefore, isEquals⟩ := List.mem_map.mp mem
    exact notBefore (eq_of_toLower (by decide) (by decide) isEquals ▸ inBefore)
  have found := before?_word notInWord notLower [] ('"' :: (value ++ '"' :: behind).map Char.toLower)
  have position : (before ++ word ++ '=' :: '"' :: (value ++ '"' :: behind)).drop
      ((before.map Char.toLower).length + (word ++ ['=']).length) = '"' :: (value ++ '"' :: behind) := by
    have split : before ++ word ++ '=' :: '"' :: (value ++ '"' :: behind) =
        (before ++ (word ++ ['='])) ++ '"' :: (value ++ '"' :: behind) := by simp
    have length : (before.map Char.toLower).length + (word ++ ['=']).length =
        (before ++ (word ++ ['='])).length := by simp
    rw [split, length, List.drop_left]
  have quoted : (value ++ '"' :: behind).takeWhile (· ≠ '"') = value := by
    rw [List.takeWhile_append_of_pos]
    · simp
    · intro char mem
      simpa using fun same : char = '"' => noQuote (same ▸ mem)
  have lowerQuote : Char.toLower '"' = '"' := by decide
  have lowerEquals : Char.toLower '=' = '=' := by decide
  rw [parameterValue, lower]
  simp only [List.map_append, List.map_cons, List.nil_append, lowerWord, lowerQuote, lowerEquals] at found ⊢
  rw [found, Option.bind_some, position]
  simp only [List.head?_cons, if_true, List.tail_cons, quoted]

theorem parameterValue_quoted {before word value : Text}
    (asciiBefore : ∀ char ∈ before, char.toNat < 128) (notBefore : '=' ∉ before)
    (isWord : word.map Char.toLower = word ∧ (∀ char ∈ word, char.toNat < 128) ∧ '=' ∉ word)
    (asciiValue : ∀ char ∈ value, char.toNat < 128) (noQuote : '"' ∉ value)
    (notEmpty : value ≠ []) :
    parameterValue casing (word ++ ['=']) (before ++ word ++ '=' :: '"' :: (value ++ ['"'])) =
      some value := by
  have ascii : ∀ char ∈ value ++ ['"'], char.toNat < 128 :=
    List.forall_mem_append.mpr ⟨asciiValue, by decide⟩
  rw [parameterValue_quote casing asciiBefore notBefore isWord ascii noQuote, if_neg notEmpty]

theorem lowerHeader_eq {headers : List (Text × Text)} {name : String} {value : Text}
    (found : getHeader headers name = some value) (ascii : ∀ char ∈ value, char.toNat < 128) :
    lowerHeader casing headers name = value.map Char.toLower := by
  rw [lowerHeader, found, Option.getD_some, casing.toLowercase_ascii value ascii]

theorem lowerHeader_none {headers : List (Text × Text)} {name : String}
    (absent : getHeader headers name = none) : lowerHeader casing headers name = [] := by
  rw [lowerHeader, absent, Option.getD_none]
  exact casing.toLowercase_ascii [] (List.forall_mem_nil _)

/-! ## The parts of a body are shorter than it -/

theorem length_feedLines_linesFrom (current text : Text) :
    (feedLines (linesFrom current text)).length ≤ current.length + text.length + 1 := by
  induction text generalizing current with
  | nil =>
    rw [linesFrom]
    split <;> simp [feedLines]
  | cons char rest ih =>
    rw [linesFrom]
    split
    · have stripped : (stripReturn current).length ≤ current.length := by
        unfold stripReturn
        split <;> simp
      have later := ih []
      simp only [feedLines_cons, List.length_append, List.length_cons, List.length_nil] at later ⊢
      omega
    · have later := ih (current ++ [char])
      simp only [List.length_append, List.length_cons, List.length_nil] at later ⊢
      omega

section Lengths

variable {boundary part : Text}

theorem length_le_of_mem_finishPart {inPart : Bool} {current : Text}
    (mem : part ∈ finishPart inPart current) : inPart = true ∧ part.length ≤ current.length := by
  have shorter : ∀ text : Text, (trimStartCrlf text).length ≤ text.length := by
    intro text
    fun_induction trimStartCrlf text with
    | case1 rest ih =>
      simp only [List.length_cons]
      omega
    | case2 text => exact Nat.le_refl _
  unfold finishPart at mem
  split at mem
  next inPart =>
    rw [Bool.and_eq_true] at inPart
    rw [List.mem_singleton.mp mem]
    exact ⟨inPart.1, (List.dropWhile_suffix _).length_le.trans (shorter current)⟩
  next => cases mem

theorem length_delimiter {line : Text} (isDelimiter : ("--".toList ++ boundary).isPrefixOf line = true) :
    2 ≤ line.length := by
  have notLonger := (List.isPrefixOf_iff_prefix.mp isDelimiter).length_le
  simp at notLonger
  omega

/-- What is read of a part was read behind a delimiter. -/
theorem length_of_mem_mimePartsFrom {inPart : Bool} {current : Text} {lines : List Text}
    (mem : part ∈ mimePartsFrom boundary inPart current lines) :
    if inPart then part.length ≤ current.length + (feedLines lines).length
    else part.length + 3 ≤ (feedLines lines).length := by
  induction lines generalizing inPart current with
  | nil => cases mem
  | cons line rest ih =>
    rw [mimePartsFrom] at mem
    rw [feedLines_cons, List.length_append, List.length_cons]
    split at mem
    · obtain ⟨rfl, short⟩ := length_le_of_mem_finishPart mem
      simp only [if_true]
      omega
    · split at mem
      next isDelimiter =>
        have long := length_delimiter isDelimiter
        rcases List.mem_append.mp mem with done | later
        · obtain ⟨rfl, short⟩ := length_le_of_mem_finishPart done
          simp only [if_true]
          omega
        · have behind := ih later
          simp only [if_true, List.length_nil] at behind
          split <;> omega
      next =>
        split at mem
        next isIn =>
          have behind := ih mem
          simp only [isIn, if_true, List.length_append, List.length_cons, List.length_nil] at behind ⊢
          omega
        next isOut =>
          have behind := ih mem
          simp only [isOut, Bool.false_eq_true, if_false] at behind ⊢
          omega

theorem length_lt_of_mem_splitMimeParts {body : Text} (mem : part ∈ splitMimeParts body boundary) :
    part.length < body.length := by
  have behind := length_of_mem_mimePartsFrom mem
  have whole := length_feedLines_linesFrom [] body
  simp only [Bool.false_eq_true, if_false, Text.lines, List.length_nil] at behind whole
  omega

theorem length_splitHeadersBody_le (raw : Text) : (splitHeadersBody raw).2.length ≤ raw.length := by
  unfold splitHeadersBody
  dsimp only
  split
  · simp only [List.length_drop]
    omega
  · split
    · simp only [List.length_drop]
      omega
    · exact Nat.zero_le _

end Lengths

/-- The function for the parts in several parts is only asked about the body of the part. -/
theorem readPart_congr {extract other : Text → Text → BodyRead} {part : Text}
    (same : ∀ contentType, extract (splitHeadersBody part).2 contentType =
      other (splitHeadersBody part).2 contentType) (read : PartsRead) :
    readPart casing extract read part = readPart casing other read part := by
  unfold readPart
  dsimp only
  rw [same]

/-- The fuel is never used up. -/
theorem extractMultipart_fuel {fuel other : Nat} {body : Text} (enough : body.length < fuel)
    (otherEnough : body.length < other) (contentType : Text) :
    extractMultipart casing fuel body contentType = extractMultipart casing other body contentType := by
  induction fuel generalizing other body contentType with
  | zero => exact absurd enough (Nat.not_lt_zero _)
  | succ fuel ih =>
    cases other with
    | zero => exact absurd otherEnough (Nat.not_lt_zero _)
    | succ other =>
      have parts : ∀ boundary, (splitMimeParts body boundary).foldl
          (readPart casing (extractMultipart casing fuel)) ⟨none, none, []⟩ =
          (splitMimeParts body boundary).foldl
            (readPart casing (extractMultipart casing other)) ⟨none, none, []⟩ := by
        intro boundary
        refine List.foldl_ext _ _ _ fun read part mem => readPart_congr casing ?_ read
        have shorter := length_lt_of_mem_splitMimeParts mem
        have notLonger := length_splitHeadersBody_le part
        exact ih (by omega) (by omega)
      unfold extractMultipart
      split
      · rfl
      · rw [parts]

end Reading

end TutaBridge.Mail
