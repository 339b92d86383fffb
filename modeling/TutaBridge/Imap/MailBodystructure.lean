import TutaBridge.Imap.Bodystructure

/-!
# The body structure of a served mail

A client compares the body structure of a message with the message: its parts, their types,
parameters and encodings, and the sizes of their bodies, which end before the line break that
belongs to the next delimiter. The bridge counts the part as it was cut out, with every line
ended by a line feed, the last one too. The two sizes are the same for bodies of two rows.
-/

namespace TutaBridge.Imap

open TutaBridge.Std TutaBridge.Std.Text Tuta TutaBridge.Mail

/-! ## What is served -/

/-- The name of a file as it stands in the head of its part. -/
def servedName (file : TutanotaFile) : Text := encodeHeaderValue file.name.toList

/-- The fields of a part whose body is the base64 text of the data. -/
def servedFields (parameters : Parameters) (data : List UInt8) : BodyFields where
  parameters := parameters
  id := none
  description := none
  encoding := Utf8.encode "BASE64".toList
  size := (Utf8.encode (base64EncodeBody data)).length

/-- The lines of the base64 text. -/
def servedLines (data : List UInt8) : Nat := (Text.lines (base64EncodeBody data)).length

/-- A text of a mail as it is served. -/
def servedText (subtype : String) (data : List UInt8) : Body :=
  .single (Utf8.encode "TEXT".toList) (Utf8.encode (subtype.toList.map Char.toUpper))
    (servedFields [(Utf8.encode "CHARSET".toList, Utf8.encode "UTF-8".toList)] data)
    (some (servedLines data)) ⟨none, none⟩

/-- The two texts of a mail as they are served. -/
def servedTexts (mail : Mail) (html : Text) : Body :=
  .multi [servedText "plain" (Utf8.encode (htmlToText html)), servedText "html" (Utf8.encode html)]
    (Utf8.encode "ALTERNATIVE".toList)
    [(Utf8.encode "BOUNDARY".toList, Utf8.encode (buildAltBoundary mail))]

/-- An attachment as it is served. -/
def servedAttachment (attachment : TutanotaFile × List UInt8) : Body :=
  .single (Utf8.encode ((mainType attachment.1).map Char.toUpper))
    (Utf8.encode ((fileSubtype attachment.1).map Char.toUpper))
    (servedFields [(Utf8.encode "NAME".toList, Utf8.encode (servedName attachment.1))] attachment.2)
    (if (mainType attachment.1).map Char.toLower = "text".toList then some (servedLines attachment.2)
      else none)
    ⟨none, some (Utf8.encode "ATTACHMENT".toList,
      [(Utf8.encode "FILENAME".toList, Utf8.encode (servedName attachment.1))])⟩

/-- A message as it is served. -/
def servedBody (mail : Mail) (details : Option MailDetails)
    (attachments : List (TutanotaFile × List UInt8)) : Body :=
  if attachments = [] then servedTexts mail (bodyText details)
  else
    .multi (servedTexts mail (bodyText details) :: attachments.map servedAttachment)
      (Utf8.encode "MIXED".toList)
      [(Utf8.encode "BOUNDARY".toList, Utf8.encode (buildBoundary mail))]

/-- A body stands in a text, between a blank line and the line break before a delimiter. -/
def Stands (data : List UInt8) (text : Text) : Prop :=
  ∃ before behind, text = before ++ (newline ++ (newline ++ (base64EncodeBody data ++
    (newline ++ ("--".toList ++ behind)))))

theorem Stands.append {data : List UInt8} {text : Text} (stands : Stands data text) (first last : Text) :
    Stands data (first ++ text ++ last) := by
  obtain ⟨before, behind, rfl⟩ := stands
  exact ⟨first ++ before, behind ++ last, by simp only [List.append_assoc]⟩

theorem stands_alternativeParts (boundary plain html : Text) :
    Stands (Utf8.encode plain) (alternativeParts boundary plain html) ∧
      Stands (Utf8.encode html) (alternativeParts boundary plain html) := by
  let fields : String → Text := fun subtype =>
    headerLine "Content-Type" ("text/".toList ++ subtype.toList ++ "; charset=UTF-8".toList) ++ newline ++
      headerLine "Content-Transfer-Encoding" "base64".toList
  have heads : ∀ subtype, textPartHeaders subtype = fields subtype ++ (newline ++ newline) := by
    intro subtype
    unfold textPartHeaders fields
    simp only [List.append_assoc]
  unfold alternativeParts
  rw [heads, heads]
  constructor
  · refine ⟨"--".toList ++ boundary ++ newline ++ fields "plain", boundary ++ newline ++ (fields "html" ++
      (newline ++ newline)) ++ base64EncodeBody (Utf8.encode html) ++ newline ++ "--".toList ++ boundary ++
      "--".toList ++ newline, ?_⟩
    simp only [List.append_assoc]
  · refine ⟨"--".toList ++ boundary ++ newline ++ (fields "plain" ++ (newline ++ newline)) ++
      base64EncodeBody (Utf8.encode plain) ++ newline ++ "--".toList ++ boundary ++ newline ++ fields "html",
      boundary ++ "--".toList ++ newline, ?_⟩
    simp only [List.append_assoc]

/-- An attachment's body stands before the delimiter of the next part or the last one. -/
theorem stands_attachmentParts (boundary tail : Text) {attachments : List (TutanotaFile × List UInt8)}
    {attachment : TutanotaFile × List UInt8} (mem : attachment ∈ attachments) :
    Stands attachment.2 (attachments.flatMap (fun attachment =>
      attachmentPart boundary attachment.1 attachment.2) ++ ("--".toList ++ tail)) := by
  induction attachments with
  | nil => cases mem
  | cons first rest ih =>
    rw [List.flatMap_cons]
    rcases List.mem_cons.mp mem with rfl | inRest
    · obtain ⟨behind, isNext⟩ : ∃ behind, rest.flatMap (fun attachment =>
          attachmentPart boundary attachment.1 attachment.2) ++ ("--".toList ++ tail) =
            "--".toList ++ behind := by
        cases rest with
        | nil => exact ⟨tail, rfl⟩
        | cons second rest =>
          unfold attachmentPart
          simp only [List.flatMap_cons, List.append_assoc]
          exact ⟨_, rfl⟩
      have rows : ([] :: bodyRows attachment.2).flatMap (fun row => row ++ newline) =
          newline ++ (base64EncodeBody attachment.2 ++ newline) := by
        rw [List.flatMap_cons, ← base64EncodeBody_newline, List.nil_append]
      rw [List.append_assoc, isNext, attachmentPart_eq, attachmentHead_eq, rows]
      exact ⟨"--".toList ++ boundary ++ newline ++
        newline.intercalate (fieldLines (attachmentFields attachment.1)), behind, by
          simp only [List.append_assoc]⟩
    · have later := (ih inRest).append
        (attachmentPart boundary first.1 first.2) []
      rwa [List.append_nil, ← List.append_assoc] at later

/-- What is served is what stands in the message. -/
theorem stands_mailToRfc2822 {mail : Mail} {details : Option MailDetails}
    {attachments : List (TutanotaFile × List UInt8)} {data : List UInt8}
    (mem : data ∈ Utf8.encode (htmlToText (bodyText details)) :: Utf8.encode (bodyText details) ::
      attachments.map Prod.snd) :
    Stands data (mailToRfc2822 mail details attachments) := by
  have inBody : Stands data (messageBody mail details attachments) := by
    have texts := stands_alternativeParts (buildAltBoundary mail) (htmlToText (bodyText details))
      (bodyText details)
    by_cases noAttachments : attachments = []
    · subst noAttachments
      rw [messageBody, if_pos rfl]
      rcases List.mem_cons.mp mem with rfl | mem
      · exact texts.1
      · rw [List.mem_singleton.mp mem]
        exact texts.2
    · have isBody : messageBody mail details attachments =
          ("This is a multi-part message in MIME format.".toList ++ newline ++ "--".toList ++
            buildBoundary mail ++ newline ++ headerLine "Content-Type"
              (multipartType "alternative" (buildAltBoundary mail)) ++ newline ++ newline) ++
          alternativeParts (buildAltBoundary mail) (htmlToText (bodyText details)) (bodyText details) ++
          (attachments.flatMap (fun attachment =>
            attachmentPart (buildBoundary mail) attachment.1 attachment.2) ++
            ("--".toList ++ (buildBoundary mail ++ "--".toList ++ newline))) := by
        unfold messageBody pushAlternativeBody
        dsimp only
        rw [if_neg noAttachments]
        simp only [List.append_assoc]
      rw [isBody]
      rcases List.mem_cons.mp mem with rfl | mem
      · exact texts.1.append _ _
      · rcases List.mem_cons.mp mem with rfl | mem
        · exact texts.2.append _ _
        · obtain ⟨attachment, inList, rfl⟩ := List.mem_map.mp mem
          have attached := (stands_attachmentParts (buildBoundary mail)
            (buildBoundary mail ++ "--".toList ++ newline) inList).append
              ("This is a multi-part message in MIME format.".toList ++ newline ++ "--".toList ++
                buildBoundary mail ++ newline ++ headerLine "Content-Type"
                  (multipartType "alternative" (buildAltBoundary mail)) ++ newline ++ newline ++
                alternativeParts (buildAltBoundary mail) (htmlToText (bodyText details))
                  (bodyText details)) []
          rwa [List.append_nil] at attached
  have whole := inBody.append (joinLines (fieldLines (messageFields mail details attachments)) ++ newline ++
    newline) []
  rwa [List.append_nil, ← mailToRfc2822_eq] at whole

/-! ## When it is described -/

/-- Data whose base64 text takes two rows. -/
def TakesTwoRows (data : List UInt8) : Prop := 58 ≤ data.length ∧ data.length ≤ 114

instance (data : List UInt8) : Decidable (TakesTwoRows data) := inferInstanceAs (Decidable (_ ∧ _))

/-- A file of one part with a name that no parameter list cuts. -/
structure DescribedFile (file : TutanotaFile) : Prop where
  single : (mainType file).map Char.toLower ≠ "multipart".toList
  noMessage : ¬ ((mainType file).map Char.toLower = "message".toList ∧
    (fileSubtype file).map Char.toLower = "rfc822".toList)
  named : servedName file ≠ []
  uncut : ';' ∉ servedName file

/-! ## Words -/

theorem isWord_upper {text : Text} (ascii : ∀ char ∈ text, char.toNat < 128) (word : String) :
    isWord word (Utf8.encode (text.map Char.toUpper)) = decide (text.map Char.toLower = word.toList) := by
  have table := @of_ascii (fun char => char.toUpper.toNat < 128 ∧
    (Char.ofNat (UInt8.ofNat char.toUpper.toNat).toNat).toLower = char.toLower) (by decide)
  have upper : ∀ char ∈ text.map Char.toUpper, char.toNat < 128 := by
    intro char mem
    obtain ⟨original, inText, rfl⟩ := List.mem_map.mp mem
    exact (table (ascii original inText)).1
  have back : (Utf8.encode (text.map Char.toUpper)).map (fun octet => (Char.ofNat octet.toNat).toLower) =
      text.map Char.toLower := by
    rw [Utf8.encode_ascii upper, List.map_map, List.map_map]
    exact List.map_congr_left fun char mem => (table (ascii char mem)).2
  rw [isWord, back]

theorem quotable_toUppercase (casing : Casing) {text : Text} (quotable : IsQuotableText text) :
    IsQuotableText (casing.toUppercase text) := by
  have table := @of_ascii (fun char => 0 < char.toNat ∧ char ≠ '\r' ∧ char ≠ '\n' →
    0 < char.toUpper.toNat ∧ char.toUpper.toNat < 0x80 ∧ char.toUpper ≠ '\r' ∧ char.toUpper ≠ '\n')
    (by decide)
  rw [casing.toUppercase_ascii fun char mem => (quotable char mem).2.1]
  intro char mem
  obtain ⟨original, inText, rfl⟩ := List.mem_map.mp mem
  obtain ⟨positive, ascii, noReturn, noFeed⟩ := quotable original inText
  exact table ascii ⟨positive, noReturn, noFeed⟩

theorem quotable_pairs (casing : Casing) {value : Text} (quotable : IsQuotableText value) :
    QuotablePairs casing (parameterPairs value) := by
  intro pair mem
  have inValue := mem_of_mem_parameterPairs mem
  exact ⟨quotable_toUppercase casing fun char inKey =>
      quotable char (inValue char (List.mem_append_left _ inKey)),
    fun char inRest => quotable char (inValue char (List.mem_append_right _ inRest))⟩

theorem quotable_of_isQuotable {char : Char} (quotable : isQuotable char = true) : IsQuotable char := by
  obtain ⟨ascii, -, noReturn, noFeed⟩ := plain_of_isQuotable quotable
  refine ⟨?_, ascii, noReturn, noFeed⟩
  simp only [isQuotable, Bool.and_eq_true, decide_eq_true_eq] at quotable
  omega

theorem quotable_of_isTokenChar {char : Char} (token : isTokenChar char = true) : IsQuotable char := by
  have small := (plain_of_isTokenChar token).1
  exact @of_ascii (fun char => isTokenChar char = true → 0 < char.toNat ∧ char.toNat < 0x80 ∧
    char ≠ '\r' ∧ char ≠ '\n') (by decide) char small token

theorem quotable_of_isToken {text : Text} (token : IsToken text) : IsQuotableText text :=
  fun char mem => quotable_of_isTokenChar (List.all_eq_true.mp token.2 char mem)

/-! ## What a part is read as -/

section Parts

variable (casing : Casing)

/-- A single part is written with its type and its encoding in capital letters. -/
theorem singlePartStructure_eq {contentType type subtype : Text} {headers : List (Text × Text)}
    {disposition : Option (Text × List (Text × Text))}
    (isType : parseTypeSubtype contentType = (type, subtype))
    (isDisposition : buildDisposition casing headers = disposition.map fun read =>
      '(' :: Mail.quoted read.1 ++ ' ' :: parameterList casing read.2 ++ [')']) (encoding body : Text) :
    singlePartStructure casing contentType encoding body headers =
      singleText casing (casing.toUppercase type) (casing.toUppercase subtype)
        (parameterPairs contentType) (casing.toUppercase encoding) (Utf8.encode body).length
        (if eqIgnoreAsciiCase type "text".toList then some (countLines body) else none) disposition := by
  have opening : " NIL (".toList = " NIL ".toList ++ ['('] := by decide
  have lines : (if eqIgnoreAsciiCase type "text".toList then ' ' :: decimal (countLines body) else []) =
      linesText (if eqIgnoreAsciiCase type "text".toList then some (countLines body) else none) := by
    split <;> rfl
  unfold singlePartStructure singleText fieldsText buildParams
  rw [isType]
  dsimp only
  rw [lines, isDisposition]
  generalize " NIL NIL ".toList = nils
  cases disposition with
  | none =>
    unfold extensionText
    simp only [Option.map_none, List.append_assoc, List.cons_append]
  | some read =>
    unfold extensionText
    dsimp only [Option.map_some]
    rw [opening]
    generalize " NIL ".toList = md5
    simp only [List.append_assoc, List.cons_append, List.nil_append]

/-- The size and the lines of a part as they are counted. -/
def countedSize (data : List UInt8) : Nat := (Utf8.encode (feedLines (bodyRows data))).length

theorem countLines_bodyRows (data : List UInt8) : countLines (feedLines (bodyRows data)) = (bodyRows data).length :=
  countLines_feedLines (unbroken_bodyRows data)

/-- Where the size is right, the lines are. -/
theorem lines_of_takesTwoRows {data : List UInt8} (twoRows : TakesTwoRows data) :
    (bodyRows data).length = servedLines data := by
  have notEmpty : data ≠ [] := by
    rintro rfl
    exact absurd twoRows.1 (by decide)
  rw [servedLines, lines_base64EncodeBody notEmpty]

/-- A text as it is counted. -/
def countedText (subtype : String) (data : List UInt8) : Body :=
  singleBody casing "TEXT".toList (subtype.toList.map Char.toUpper)
    [("charset".toList, "UTF-8".toList)] "BASE64".toList (countedSize data) (some (bodyRows data).length) none

theorem countedText_eq_iff (subtype : String) (data : List UInt8) :
    countedText casing subtype data = servedText subtype data ↔ TakesTwoRows data := by
  have name : casing.toUppercase "charset".toList = "CHARSET".toList := casing.toUppercase_ascii (by decide)
  constructor
  · intro same
    have sizes : countedSize data = (Utf8.encode (base64EncodeBody data)).length := by
      have fields := (Body.single.inj same).2.2.1
      exact congrArg BodyFields.size fields
    exact (size_agrees_iff data).mp sizes
  · intro twoRows
    have sizes : countedSize data = (Utf8.encode (base64EncodeBody data)).length :=
      (size_agrees_iff data).mpr twoRows
    rw [countedText, singleBody, servedText, servedFields, sizes, lines_of_takesTwoRows twoRows,
      parametersOf, List.map_singleton, name, Option.map_none]

theorem answers_text (fuel : Nat) {subtype : String} (isText : subtype = "plain" ∨ subtype = "html")
    (data : List UInt8) :
    Reader.Answers (readStructure (fuel + 1)) (Utf8.encode (textStructure casing subtype data)) Reader.Anything
      (some (countedText casing subtype data)) := by
  have facts : parseTypeSubtype ("text/".toList ++ subtype.toList ++ "; charset=UTF-8".toList) =
        ("text".toList, subtype.toList) ∧
      parameterPairs ("text/".toList ++ subtype.toList ++ "; charset=UTF-8".toList) =
        [("charset".toList, "UTF-8".toList)] ∧
      getHeader (readFields (textFields subtype)) "content-disposition" = none ∧
      (∀ char ∈ subtype.toList, isTokenChar char = true) := by
    rcases isText with rfl | rfl <;> decide
  obtain ⟨isType, isPairs, noDisposition, token⟩ := facts
  have ascii : ∀ char ∈ subtype.toList, char.toNat < 128 :=
    fun char mem => (plain_of_isTokenChar (token char mem)).1
  have upperType : casing.toUppercase "text".toList = "TEXT".toList := casing.toUppercase_ascii (by decide)
  have upperEncoding : casing.toUppercase "base64".toList = "BASE64".toList :=
    casing.toUppercase_ascii (by decide)
  have isDisposition : buildDisposition casing (readFields (textFields subtype)) =
      (none : Option (Text × List (Text × Text))).map fun read =>
        '(' :: Mail.quoted read.1 ++ ' ' :: parameterList casing read.2 ++ [')'] := by
    rw [buildDisposition, noDisposition]
    rfl
  have quotableUpper : ∀ text : Text, (∀ char ∈ text, isTokenChar char = true) →
      IsQuotableText (casing.toUppercase text) := fun text token => quotable_toUppercase casing
    fun char mem => quotable_of_isTokenChar (token char mem)
  have quotableType := quotableUpper "text".toList (by decide)
  have quotableSubtype := quotableUpper subtype.toList token
  have quotableEncoding := quotableUpper "base64".toList (by decide)
  have quotablePairs : QuotablePairs casing [("charset".toList, "UTF-8".toList)] :=
    List.forall_mem_singleton.mpr ⟨quotableUpper _ (by decide),
      fun char mem => quotable_of_isTokenChar
        ((by decide : ∀ char ∈ "UTF-8".toList, isTokenChar char = true) char mem)⟩
  rw [upperType] at quotableType
  rw [casing.toUppercase_ascii ascii] at quotableSubtype
  rw [upperEncoding] at quotableEncoding
  have written := singlePartStructure_eq casing isType isDisposition "base64".toList
    (feedLines (bodyRows data))
  have isText : eqIgnoreAsciiCase "text".toList "text".toList = true := by decide
  rw [isPairs, upperType, upperEncoding, casing.toUppercase_ascii ascii, if_pos isText,
    countLines_bodyRows] at written
  have text : isWord "text" (Utf8.encode "TEXT".toList) = true := by decide
  have answers := @answers_single casing _ _ _ _ (some (bodyRows data).length) none
    ⟨quotableType, quotableSubtype⟩ ⟨quotablePairs, quotableEncoding⟩ (fun read isRead => by cases isRead)
    text.symm (countedSize data) fuel
  rw [if_neg fun both => by cases both.1] at answers
  rw [textStructure, written]
  exact answers

/-- The two texts as they are counted. -/
def countedTexts (mail : Mail) (html : Text) : Body :=
  .multi [countedText casing "plain" (Utf8.encode (htmlToText html)),
    countedText casing "html" (Utf8.encode html)] (Utf8.encode "ALTERNATIVE".toList)
    (parametersOf casing [("boundary".toList, buildAltBoundary mail)])

theorem parametersOf_boundary (boundary : Text) : parametersOf casing [("boundary".toList, boundary)] =
      [(Utf8.encode "BOUNDARY".toList, Utf8.encode boundary)] := by
  have name : casing.toUppercase "boundary".toList = "BOUNDARY".toList :=
    casing.toUppercase_ascii (by decide)
  rw [parametersOf, List.map_singleton, name]

theorem countedTexts_eq_iff (mail : Mail) (html : Text) : countedTexts casing mail html = servedTexts mail html ↔
      TakesTwoRows (Utf8.encode (htmlToText html)) ∧ TakesTwoRows (Utf8.encode html) := by
  rw [countedTexts, servedTexts, parametersOf_boundary, ← countedText_eq_iff casing "plain",
    ← countedText_eq_iff casing "html"]
  constructor
  · intro same
    have parts := (Body.multi.inj same).1
    exact ⟨(List.cons.inj parts).1, (List.cons.inj (List.cons.inj parts).2).1⟩
  · rintro ⟨plain, html⟩
    rw [plain, html]

theorem quotable_boundary {boundary : Text} (quotable : boundary.all isQuotable = true) : IsQuotableText boundary :=
  fun char mem => quotable_of_isQuotable (List.all_eq_true.mp quotable char mem)

theorem answers_texts {mail : Mail} (ids : HasTutaIds mail) (html : Text) (fuel : Nat) :
    Reader.Answers (readStructure (fuel + 2)) (Utf8.encode (textsStructure casing mail html)) Reader.Anything
      (some (countedTexts casing mail html)) := by
  let parts : List (String × List UInt8) :=
    [("plain", Utf8.encode (htmlToText html)), ("html", Utf8.encode html)]
  have answers : ∀ part ∈ parts, Reader.Answers (readStructure (fuel + 1))
      (Utf8.encode (textStructure casing part.1 part.2)) Reader.Anything
        (some (countedText casing part.1 part.2)) := by
    refine List.forall_mem_cons.mpr ⟨answers_text casing fuel (.inl rfl) _,
      List.forall_mem_singleton.mpr (answers_text casing fuel (.inr rfl) _)⟩
  have quotable : IsQuotableText "ALTERNATIVE".toList ∧ IsQuotableText (buildAltBoundary mail) :=
    ⟨quotable_of_isToken ⟨by decide, by decide⟩, quotable_boundary (quotable_boundaries ids).2⟩
  have isWritten : Utf8.encode (textStructure casing "plain" (Utf8.encode (htmlToText html)) ++
      textStructure casing "html" (Utf8.encode html)) =
        parts.flatMap fun part => Utf8.encode (textStructure casing part.1 part.2) := by
    simp [parts, Utf8.encode_append]
  exact answers_multi casing answers (fun part _ => rfl) (List.cons_ne_nil _ _) quotable isWritten

section Attachment

variable {attachment : TutanotaFile × List UInt8} (safe : SafeFile attachment.1)

include safe

theorem quotable_fileType : IsQuotableText (fileType attachment.1) := by
  have name : ∀ char ∈ servedName attachment.1, IsQuotable char := fun char mem =>
    quotable_of_isQuotable (List.all_eq_true.mp safe.quotable char mem)
  have type := quotable_of_isToken safe.typeToken
  have subtype := quotable_of_isToken safe.subtypeToken
  have plain : ∀ text ∈ [['/'], "; name=\"".toList, ['"']], ∀ char ∈ text,
      0 < char.toNat ∧ char.toNat < 0x80 ∧ char ≠ '\r' ∧ char ≠ '\n' := by decide
  unfold fileType
  rw [safe.mimeOf_eq]
  refine List.forall_mem_append.mpr ⟨List.forall_mem_append.mpr ⟨List.forall_mem_append.mpr
    ⟨List.forall_mem_append.mpr ⟨type, List.forall_mem_cons.mpr ⟨?_, subtype⟩⟩, ?_⟩, name⟩, ?_⟩
  · exact plain ['/'] (by simp) '/' (by simp)
  · exact plain _ (by simp)
  · exact plain _ (by simp)

theorem quotable_fileDisposition : IsQuotableText (fileDisposition attachment.1) := by
  have name : ∀ char ∈ servedName attachment.1, IsQuotable char := fun char mem =>
    quotable_of_isQuotable (List.all_eq_true.mp safe.quotable char mem)
  have plain : ∀ text ∈ ["attachment; filename=\"".toList, ['"']], ∀ char ∈ text,
      0 < char.toNat ∧ char.toNat < 0x80 ∧ char ≠ '\r' ∧ char ≠ '\n' := by decide
  exact List.forall_mem_append.mpr ⟨List.forall_mem_append.mpr ⟨plain _ (by simp), name⟩, plain _ (by simp)⟩

omit safe in
/-- A parameter is read as it is served if no mark cuts it and it is not empty. -/
theorem parametersOf_eq_iff {head key value : Text} (noMark : ';' ∉ head ∧ ';' ∉ key)
    (isKey : key ≠ [] ∧ trim key = key ∧ '=' ∉ key) (noQuote : '"' ∉ value) :
    parametersOf casing (parameterPairs (head ++ ';' :: ' ' :: (key ++ '=' :: '"' :: (value ++ ['"'])))) =
      [(Utf8.encode (casing.toUppercase key), Utf8.encode value)] ↔ value ≠ [] ∧ ';' ∉ value := by
  by_cases mark : ';' ∈ value
  · obtain ⟨kept, rest, isCut⟩ := parameterPairs_cut noMark isKey noQuote mark
    rw [isCut, parametersOf, List.map_cons]
    constructor
    · intro same
      have values := (Prod.mk.inj (List.cons.inj same).1).2
      have isValue := Utf8.encode_injective values
      exact absurd (isValue ▸ List.mem_cons_self) noQuote
    · exact fun uncut => absurd mark uncut.2
  · rw [parameterPairs_quoted ⟨noMark.1, noMark.2, mark⟩ isKey]
    by_cases isEmpty : value = []
    · rw [if_pos isEmpty]
      constructor
      · intro same
        cases same
      · exact fun named => absurd isEmpty named.1
    · rw [if_neg isEmpty]
      exact iff_of_true rfl ⟨isEmpty, mark⟩

theorem noQuote_servedName : '"' ∉ servedName attachment.1 := fun mem =>
  (plain_of_isQuotable (List.all_eq_true.mp safe.quotable '"' mem)).2.1 rfl

theorem fileType_parameters_iff : parametersOf casing (parameterPairs (fileType attachment.1)) =
        [(Utf8.encode "NAME".toList, Utf8.encode (servedName attachment.1))] ↔
      servedName attachment.1 ≠ [] ∧ ';' ∉ servedName attachment.1 := by
  have name : casing.toUppercase "name".toList = "NAME".toList := casing.toUppercase_ascii (by decide)
  have noMark : ';' ∉ mimeOf attachment.1 := fun mem => (safe.plain_mime ';' mem).2.2 rfl
  rw [fileType_eq, ← name]
  exact parametersOf_eq_iff casing ⟨noMark, by decide⟩ (by decide) (noQuote_servedName safe)

theorem fileDisposition_parameters_iff : parametersOf casing (parameterPairs (fileDisposition attachment.1)) =
        [(Utf8.encode "FILENAME".toList, Utf8.encode (servedName attachment.1))] ↔
      servedName attachment.1 ≠ [] ∧ ';' ∉ servedName attachment.1 := by
  have name : casing.toUppercase "filename".toList = "FILENAME".toList :=
    casing.toUppercase_ascii (by decide)
  rw [fileDisposition_eq, ← name]
  exact parametersOf_eq_iff casing (by decide) (by decide) (noQuote_servedName safe)

theorem lower_fileType : casing.toLowercase (fileType attachment.1) =
    (mainType attachment.1).map Char.toLower ++ '/' :: ((fileSubtype attachment.1 ++
      ("; name=\"".toList ++ (servedName attachment.1 ++ ['"']))).map Char.toLower) := by
  have slash : ['/'].map Char.toLower = ['/'] := by decide
  have isType : fileType attachment.1 = mainType attachment.1 ++ (['/'] ++ (fileSubtype attachment.1 ++
      ("; name=\"".toList ++ (servedName attachment.1 ++ ['"'])))) := by
    unfold fileType servedName
    rw [safe.mimeOf_eq]
    generalize "; name=\"".toList = key
    simp only [List.append_assoc, List.cons_append, List.nil_append]
  rw [casing.toLowercase_ascii _ safe.ascii_fileType, isType, List.map_append, List.map_append, slash]
  rfl

/-- A type is one of several parts if it is `multipart` before its slash. -/
theorem isPrefixOf_fileType_iff :
    "multipart/".toList.isPrefixOf (casing.toLowercase (fileType attachment.1)) = true ↔
      (mainType attachment.1).map Char.toLower = "multipart".toList := by
  have noSlash : '/' ∉ (mainType attachment.1).map Char.toLower := by
    intro mem
    obtain ⟨char, inType, isSlash⟩ := List.mem_map.mp mem
    have same := eq_of_toLower (by decide) (by decide) isSlash
    exact (safe.typeToken.plain char inType).2.2.2 same
  have split : "multipart/".toList = "multipart".toList ++ ['/'] := by decide
  rw [lower_fileType casing safe, List.isPrefixOf_iff_prefix, split]
  generalize (fileSubtype attachment.1 ++ ("; name=\"".toList ++
    (servedName attachment.1 ++ ['"']))).map Char.toLower = behind
  constructor
  · rintro ⟨rest, same⟩
    have cut := @splitOnce_append _ _ behind noSlash
    rw [← same, List.append_assoc, List.singleton_append,
      splitOnce_append (by decide : '/' ∉ "multipart".toList)] at cut
    exact (congrArg Prod.fst (Option.some.inj cut)).symm
  · intro same
    exact ⟨behind, by rw [same, List.append_assoc, List.singleton_append]⟩

/-- An attachment as it is counted. -/
def countedAttachment (attachment : TutanotaFile × List UInt8) : Body :=
  singleBody casing ((mainType attachment.1).map Char.toUpper) ((fileSubtype attachment.1).map Char.toUpper)
    (parameterPairs (fileType attachment.1)) "BASE64".toList (countedSize attachment.2)
    (if (mainType attachment.1).map Char.toLower = "text".toList then some (bodyRows attachment.2).length
      else none)
    (some ("ATTACHMENT".toList, parameterPairs (fileDisposition attachment.1)))

theorem countedAttachment_eq_iff : countedAttachment casing attachment = servedAttachment attachment ↔
      TakesTwoRows attachment.2 ∧ servedName attachment.1 ≠ [] ∧ ';' ∉ servedName attachment.1 := by
  have types := fileType_parameters_iff casing safe
  have dispositions := fileDisposition_parameters_iff casing safe
  rw [countedAttachment, singleBody, servedAttachment, servedFields, Option.map_some]
  constructor
  · intro same
    obtain ⟨-, -, fields, -, -⟩ := Body.single.inj same
    have sizes := congrArg BodyFields.size fields
    have parameters := congrArg BodyFields.parameters fields
    exact ⟨(size_agrees_iff attachment.2).mp sizes, types.mp parameters⟩
  · rintro ⟨twoRows, named⟩
    have sizes : countedSize attachment.2 = (Utf8.encode (base64EncodeBody attachment.2)).length :=
      (size_agrees_iff attachment.2).mpr twoRows
    rw [types.mpr named, dispositions.mpr named, sizes, lines_of_takesTwoRows twoRows]

/-- A file of one part, as it is written. -/
theorem attachmentStructure_single
    (single : (mainType attachment.1).map Char.toLower ≠ "multipart".toList) (fuel : Nat) :
    attachmentStructure casing fuel attachment = singleText casing ((mainType attachment.1).map Char.toUpper)
        ((fileSubtype attachment.1).map Char.toUpper) (parameterPairs (fileType attachment.1))
        "BASE64".toList (countedSize attachment.2)
        (if (mainType attachment.1).map Char.toLower = "text".toList then
          some (bodyRows attachment.2).length else none)
        (some ("ATTACHMENT".toList, parameterPairs (fileDisposition attachment.1))) := by
  have notMultipart := mt (isPrefixOf_fileType_iff casing safe).mp single
  obtain ⟨-, -, hasDisposition⟩ := safe.getHeader_attachmentFields
  have isHead : valueHead (fileDisposition attachment.1) = "attachment".toList := by
    rw [fileDisposition_eq, valueHead_append (by decide) (by decide)]
  have upperDisposition : casing.toUppercase "attachment".toList = "ATTACHMENT".toList :=
    casing.toUppercase_ascii (by decide)
  have upperEncoding : casing.toUppercase "base64".toList = "BASE64".toList :=
    casing.toUppercase_ascii (by decide)
  have isDisposition : buildDisposition casing (readFields (attachmentFields attachment.1)) =
      (some ("ATTACHMENT".toList, parameterPairs (fileDisposition attachment.1))).map fun read =>
        '(' :: Mail.quoted read.1 ++ ' ' :: parameterList casing read.2 ++ [')'] := by
    rw [buildDisposition, hasDisposition, Option.bind_some, isHead]
    dsimp only
    rw [if_neg (by decide), upperDisposition]
    rfl
  have asciiType : ∀ char ∈ mainType attachment.1, char.toNat < 128 :=
    fun char mem => (safe.typeToken.plain char mem).1
  have asciiSubtype : ∀ char ∈ fileSubtype attachment.1, char.toNat < 128 :=
    fun char mem => (safe.subtypeToken.plain char mem).1
  have lower : "text".toList.map Char.toLower = "text".toList := by decide
  rw [attachmentStructure, bodystructureFor_single casing (Bool.not_eq_true _ ▸ notMultipart),
    singlePartStructure_eq casing safe.parseTypeSubtype_fileType isDisposition, upperEncoding,
    casing.toUppercase_ascii asciiType, casing.toUppercase_ascii asciiSubtype, countLines_bodyRows,
    eqIgnoreAsciiCase, lower]
  simp only [decide_eq_true_eq]
  rfl

theorem answers_single_attachment
    (single : (mainType attachment.1).map Char.toLower ≠ "multipart".toList) (inner fuel : Nat) :
    Reader.Answers (readStructure (fuel + 1)) (Utf8.encode (attachmentStructure casing inner attachment))
      Reader.Anything
      (if (mainType attachment.1).map Char.toLower = "message".toList ∧
          (fileSubtype attachment.1).map Char.toLower = "rfc822".toList then none
        else some (countedAttachment casing attachment)) := by
  have asciiType : ∀ char ∈ mainType attachment.1, char.toNat < 128 :=
    fun char mem => (safe.typeToken.plain char mem).1
  have asciiSubtype : ∀ char ∈ fileSubtype attachment.1, char.toNat < 128 :=
    fun char mem => (safe.subtypeToken.plain char mem).1
  have quotableType := quotable_toUppercase casing (quotable_of_isToken safe.typeToken)
  have quotableSubtype := quotable_toUppercase casing (quotable_of_isToken safe.subtypeToken)
  rw [casing.toUppercase_ascii asciiType] at quotableType
  rw [casing.toUppercase_ascii asciiSubtype] at quotableSubtype
  have quotableTypes := quotable_pairs casing (quotable_fileType safe)
  have quotableDispositions := quotable_pairs casing (quotable_fileDisposition safe)
  have quotableEncoding : IsQuotableText "BASE64".toList := quotable_of_isToken ⟨by decide, by decide⟩
  have quotableKind : IsQuotableText "ATTACHMENT".toList := quotable_of_isToken ⟨by decide, by decide⟩
  have textWord := isWord_upper asciiType "text"
  have messageWord : isMessage (Utf8.encode ((mainType attachment.1).map Char.toUpper))
      (Utf8.encode ((fileSubtype attachment.1).map Char.toUpper)) = true ↔
        (mainType attachment.1).map Char.toLower = "message".toList ∧
          (fileSubtype attachment.1).map Char.toLower = "rfc822".toList := by
    rw [isMessage, isWord_upper asciiType, isWord_upper asciiSubtype, Bool.and_eq_true,
      decide_eq_true_eq, decide_eq_true_eq]
  let lines : Option Nat := if (mainType attachment.1).map Char.toLower = "text".toList then
    some (bodyRows attachment.2).length else none
  have isText : lines.isSome = isWord "text" (Utf8.encode ((mainType attachment.1).map Char.toUpper)) := by
    rw [textWord]
    unfold lines
    split
    next text => rw [text]; rfl
    next noText => rw [decide_eq_false noText]; rfl
  have answers := @answers_single casing _ _ _ _ lines
    (some ("ATTACHMENT".toList, parameterPairs (fileDisposition attachment.1)))
    ⟨quotableType, quotableSubtype⟩ ⟨quotableTypes, quotableEncoding⟩
    (fun read isRead => by
      cases isRead
      exact ⟨quotableKind, quotableDispositions⟩) isText (countedSize attachment.2) fuel
  have condition : (lines = none ∧ isMessage (Utf8.encode ((mainType attachment.1).map Char.toUpper))
      (Utf8.encode ((fileSubtype attachment.1).map Char.toUpper)) = true) ↔
        (mainType attachment.1).map Char.toLower = "message".toList ∧
          (fileSubtype attachment.1).map Char.toLower = "rfc822".toList := by
    rw [messageWord]
    refine ⟨And.right, fun message => ⟨?_, message⟩⟩
    unfold lines
    rw [message.1]
    rfl
  rw [if_congr condition rfl rfl] at answers
  rw [attachmentStructure_single casing safe single]
  exact answers

omit safe in
theorem mimePartsFrom_clear {boundary : Text} {lines : List Text}
    (clear : ∀ line ∈ lines, ("--".toList ++ boundary).isPrefixOf line = false) :
    mimePartsFrom boundary false [] lines = [] := by
  induction lines with
  | nil => rfl
  | cons line rest ih =>
    obtain ⟨first, clear⟩ := List.forall_mem_cons.mp clear
    rw [mimePartsFrom, isPrefixOf_end first, first, if_neg (by decide), if_neg (by decide),
      if_neg (by decide)]
    exact ih clear

/-- A file that calls itself several parts is not read as what it is. -/
theorem answers_multipart_attachment
    (several : (mainType attachment.1).map Char.toLower = "multipart".toList) (inner fuel : Nat) :
    ∃ answer, Reader.Answers (readStructure (fuel + 1))
        (Utf8.encode (attachmentStructure casing (inner + 1) attachment)) Reader.Anything answer ∧
      answer ≠ some (servedAttachment attachment) := by
  have begins := (isPrefixOf_fileType_iff casing safe).mpr several
  rw [attachmentStructure, bodystructureFor, begins, if_pos rfl, multipartStructure]
  by_cases noBoundary : (extractBoundary casing (fileType attachment.1)).getD [] = []
  · have name : casing.toUppercase "charset".toList = "CHARSET".toList :=
      casing.toUppercase_ascii (by decide)
    have parameters : parameterList casing [("charset".toList, "UTF-8".toList)] =
        "(\"CHARSET\" \"UTF-8\")".toList := by
      rw [parameterList, if_neg (List.cons_ne_nil _ _), List.map_singleton, List.intercalate_singleton, name]
      decide
    have written : "(\"TEXT\" \"HTML\" (\"CHARSET\" \"UTF-8\") NIL NIL \"7BIT\" ".toList ++
        decimal (Utf8.encode (feedLines (bodyRows attachment.2))).length ++ " 0)".toList =
        singleText casing "TEXT".toList "HTML".toList [("charset".toList, "UTF-8".toList)] "7BIT".toList
          (countedSize attachment.2) (some 0) none := by
      have front : "(\"TEXT\" \"HTML\" (\"CHARSET\" \"UTF-8\") NIL NIL \"7BIT\" ".toList =
          '(' :: Mail.quoted "TEXT".toList ++ ' ' :: Mail.quoted "HTML".toList ++
            ' ' :: ("(\"CHARSET\" \"UTF-8\")".toList ++ " NIL NIL ".toList ++
              Mail.quoted "7BIT".toList ++ [' ']) := by decide
      have back : " 0)".toList = ' ' :: decimal 0 ++ [')'] := by decide
      unfold singleText fieldsText linesText extensionText countedSize
      rw [parameters, front, back]
      generalize "(\"CHARSET\" \"UTF-8\")".toList = pairs
      generalize " NIL NIL ".toList = nils
      simp only [List.append_assoc, List.cons_append, List.nil_append, List.append_nil]
    have quotablePairs : QuotablePairs casing [("charset".toList, "UTF-8".toList)] :=
      List.forall_mem_singleton.mpr ⟨quotable_toUppercase casing
        (quotable_of_isToken ⟨by decide, by decide⟩), quotable_of_isToken ⟨by decide, by decide⟩⟩
    have answers := @answers_single casing "TEXT".toList "HTML".toList _ "7BIT".toList (some 0) none
      ⟨quotable_of_isToken ⟨by decide, by decide⟩, quotable_of_isToken ⟨by decide, by decide⟩⟩
      ⟨quotablePairs, quotable_of_isToken ⟨by decide, by decide⟩⟩ (fun read isRead => by cases isRead)
      (by decide) (countedSize attachment.2) fuel
    rw [if_pos noBoundary, written]
    refine ⟨_, answers, ?_⟩
    rw [if_neg fun both => by cases both.1]
    intro same
    have types := (Body.single.inj (Option.some.inj same)).1
    have word := congrArg (isWord "multipart") types
    have asciiType : ∀ char ∈ mainType attachment.1, char.toNat < 128 :=
      fun char mem => (safe.typeToken.plain char mem).1
    rw [isWord_upper asciiType, several] at word
    exact absurd word (by decide)
  · rw [if_neg noBoundary]
    have noParts : splitMimeParts (feedLines (bodyRows attachment.2))
        ((extractBoundary casing (fileType attachment.1)).getD []) = [] := by
      rw [splitMimeParts, lines_feedLines (unbroken_bodyRows attachment.2)]
      exact mimePartsFrom_clear fun row mem =>
        isPrefixOf_line (solid_bodyRows attachment.2 row mem).2
    refine ⟨none, ?_, by simp⟩
    rw [noParts, List.flatMap_nil]
    intro rest _
    simp only [List.nil_append, List.cons_append, List.append_assoc]
    rw [Utf8.encode_cons_ascii (by decide), Utf8.encode_cons_ascii (by decide)]
    rfl

/-- What is read of an attachment is what is served if its body takes two rows and its file is one
that is described. -/
theorem answers_attachment (inner fuel : Nat) : ∃ answer, Reader.Answers (readStructure (fuel + 1))
        (Utf8.encode (attachmentStructure casing (inner + 1) attachment)) Reader.Anything answer ∧
      (answer = some (servedAttachment attachment) ↔ TakesTwoRows attachment.2 ∧ DescribedFile attachment.1) := by
  by_cases several : (mainType attachment.1).map Char.toLower = "multipart".toList
  · obtain ⟨answer, answers, differs⟩ := answers_multipart_attachment casing safe several inner fuel
    exact ⟨answer, answers, iff_of_false differs fun described => described.2.single several⟩
  · refine ⟨_, answers_single_attachment casing safe several (inner + 1) fuel, ?_⟩
    have counted := countedAttachment_eq_iff casing safe
    split
    next message => exact iff_of_false (by simp) fun described => described.2.noMessage message
    next noMessage =>
      rw [Option.some_inj, counted]
      exact ⟨fun ⟨twoRows, named, uncut⟩ => ⟨twoRows, several, noMessage, named, uncut⟩,
        fun ⟨twoRows, described⟩ => ⟨twoRows, described.named, described.uncut⟩⟩

end Attachment

end Parts

/-! ## The whole message -/

theorem mapM_map_eq_some_iff {α β γ : Type} {read : β → Option γ} {write : α → β} {meant : α → γ} (items : List α) :
    (items.map write).mapM read = some (items.map meant) ↔ ∀ item ∈ items, read (write item) = some (meant item) := by
  induction items with
  | nil => simp
  | cons first rest ih =>
    rw [List.map_cons, List.map_cons, List.mapM_cons, List.forall_mem_cons, ← ih]
    cases read (write first) with
    | none => simp
    | some value =>
      cases (rest.map write).mapM read with
      | none => simp
      | some values => simp

/-- A body structure is read whole with fuel for its octets. -/
theorem readBodystructure_of_answers {octets : Octets} {answer : Option Body}
    (answers : Reader.Answers (readStructure octets.length) octets Reader.Anything answer) :
    readBodystructure octets = answer := by
  have read := answers [] trivial
  rw [List.append_nil] at read
  rw [readBodystructure, read]
  cases answer <;> rfl

theorem length_wrapped (parts subtype boundary : Text) :
    ∃ rest, (Utf8.encode (wrapped parts subtype boundary)).length = rest + 3 := by
  have literal : (Utf8.encode " (\"BOUNDARY\" ".toList).length = 13 := by decide
  refine ⟨(Utf8.encode (wrapped parts subtype boundary)).length - 3, ?_⟩
  unfold wrapped
  simp only [Utf8.encode_append, List.length_append, literal]
  omega

section Message

variable (casing : Casing) {mail : Mail} {details : Option MailDetails}
  {attachments : List (TutanotaFile × List UInt8)}

theorem readBodystructure_texts (ids : HasTutaIds mail) :
    readBodystructure (Utf8.encode (computeBodystructure casing (mailToRfc2822 mail details []))) =
      some (countedTexts casing mail (bodyText details)) := by
  rw [computeBodystructure_texts casing ids]
  refine readBodystructure_of_answers ?_
  obtain ⟨rest, isLength⟩ := length_wrapped
    (textStructure casing "plain" (Utf8.encode (htmlToText (bodyText details))) ++
      textStructure casing "html" (Utf8.encode (bodyText details))) "ALTERNATIVE".toList
    (buildAltBoundary mail)
  have answers := answers_texts casing ids (bodyText details) (rest + 1)
  rw [textsStructure] at answers ⊢
  rw [isLength]
  exact answers

theorem head?_bodystructureFor (fuel : Nat) (contentType encoding body : Text) (headers : List (Text × Text)) :
    (Utf8.encode (bodystructureFor casing fuel contentType encoding body headers)).head? = some 40 := by
  obtain ⟨rest, begins⟩ : ∃ rest,
      bodystructureFor casing fuel contentType encoding body headers = '(' :: rest := by
    cases fuel with
    | zero => exact ⟨_, rfl⟩
    | succ fuel =>
      unfold bodystructureFor
      split
      · unfold multipartStructure
        dsimp only
        split
        · exact ⟨_, rfl⟩
        · exact ⟨_, rfl⟩
      · exact ⟨_, rfl⟩
  rw [begins, Utf8.encode_cons_ascii (by decide)]
  rfl

/-- What one part after the other is read as. -/
theorem readBodystructure_mixed (ids : HasTutaIds mail) (hasAttachments : attachments ≠ [])
    (safe : ∀ attachment ∈ attachments, SafeFile attachment.1) :
    ∃ answer : TutanotaFile × List UInt8 → Option Body,
      (∀ attachment ∈ attachments, answer attachment = some (servedAttachment attachment) ↔
        TakesTwoRows attachment.2 ∧ DescribedFile attachment.1) ∧
      readBodystructure (Utf8.encode (computeBodystructure casing (mailToRfc2822 mail details attachments))) =
        (attachments.mapM answer).map fun bodies =>
          .multi (countedTexts casing mail (bodyText details) :: bodies) (Utf8.encode "MIXED".toList)
            [(Utf8.encode "BOUNDARY".toList, Utf8.encode (buildBoundary mail))] := by
  obtain ⟨inner, isComputed⟩ := @computeBodystructure_mixed casing mail details attachments ids
    hasAttachments safe
  obtain ⟨rest, isLength⟩ := length_wrapped (textsStructure casing mail (bodyText details) ++
      attachments.flatMap (attachmentStructure casing (inner + 1))) "MIXED".toList (buildBoundary mail)
  have each : ∀ attachment, ∃ answer, attachment ∈ attachments → Reader.Answers (readStructure (rest + 2))
        (Utf8.encode (attachmentStructure casing (inner + 1) attachment)) Reader.Anything answer ∧
      (answer = some (servedAttachment attachment) ↔
        TakesTwoRows attachment.2 ∧ DescribedFile attachment.1) := by
    intro attachment
    by_cases mem : attachment ∈ attachments
    · obtain ⟨answer, facts⟩ := answers_attachment casing (safe attachment mem) inner (rest + 1)
      exact ⟨answer, fun _ => facts⟩
    · exact ⟨none, fun isMember => absurd isMember mem⟩
  choose answer facts using each
  refine ⟨answer, fun attachment mem => (facts attachment mem).2, ?_⟩
  -- The texts are the first item, the attachments the others.
  let write : Option (TutanotaFile × List UInt8) → Octets := fun item =>
    match item with
    | none => Utf8.encode (textsStructure casing mail (bodyText details))
    | some attachment => Utf8.encode (attachmentStructure casing (inner + 1) attachment)
  let read : Option (TutanotaFile × List UInt8) → Option Body := fun item =>
    match item with
    | none => some (countedTexts casing mail (bodyText details))
    | some attachment => answer attachment
  have answers : ∀ item ∈ none :: attachments.map some,
      Reader.Answers (readStructure (rest + 2)) (write item) Reader.Anything (read item) := by
    refine List.forall_mem_cons.mpr ⟨answers_texts casing ids (bodyText details) rest, ?_⟩
    intro item mem
    obtain ⟨attachment, inList, rfl⟩ := List.mem_map.mp mem
    exact (facts attachment inList).1
  have begins : ∀ item ∈ none :: attachments.map some, (write item).head? = some 40 := by
    intro item _
    cases item with
    | none => rfl
    | some attachment => exact head?_bodystructureFor casing _ _ _ _ _
  have isWritten : Utf8.encode (textsStructure casing mail (bodyText details) ++
      attachments.flatMap (attachmentStructure casing (inner + 1))) =
        (none :: attachments.map some).flatMap write := by
    rw [Utf8.encode_append, encode_flatMap, List.flatMap_cons, List.flatMap_map]
  have multi := answers_multi casing answers begins (List.cons_ne_nil _ _)
    ⟨@quotable_of_isToken "MIXED".toList ⟨by decide, by decide⟩,
      quotable_boundary (quotable_boundaries ids).1⟩ isWritten
  have isAnswer : (none :: attachments.map some).mapM read =
      (attachments.mapM answer).map fun bodies => countedTexts casing mail (bodyText details) :: bodies := by
    have attached : read ∘ some = answer := rfl
    rw [List.mapM_cons, List.mapM_map, attached]
    cases attachments.mapM answer <;> rfl
  rw [isAnswer, Option.map_map, parametersOf_boundary] at multi
  rw [isComputed]
  refine readBodystructure_of_answers ?_
  rw [isLength]
  exact multi

/-- The texts and the attachments stand in the message, and it is described by its body structure exactly if every
text and every attachment takes two rows, and every file is one that is described. -/
theorem readBodystructure_mailToRfc2822_iff (ids : HasTutaIds mail)
    (safe : ∀ attachment ∈ attachments, SafeFile attachment.1) :
    (∀ data ∈ Utf8.encode (htmlToText (bodyText details)) :: Utf8.encode (bodyText details) ::
      attachments.map Prod.snd, Stands data (mailToRfc2822 mail details attachments)) ∧
    (readBodystructure (Utf8.encode (computeBodystructure casing (mailToRfc2822 mail details attachments))) =
        some (servedBody mail details attachments) ↔
      TakesTwoRows (Utf8.encode (htmlToText (bodyText details))) ∧ TakesTwoRows (Utf8.encode (bodyText details)) ∧
        ∀ attachment ∈ attachments, TakesTwoRows attachment.2 ∧ DescribedFile attachment.1) := by
  refine ⟨fun data mem => stands_mailToRfc2822 mem, ?_⟩
  have texts := countedTexts_eq_iff casing mail (bodyText details)
  by_cases noAttachments : attachments = []
  · subst noAttachments
    rw [readBodystructure_texts casing ids, servedBody, if_pos rfl, Option.some_inj, texts]
    simp
  · obtain ⟨answer, each, isRead⟩ := @readBodystructure_mixed casing mail details attachments ids
      noAttachments safe
    have attached := @mapM_map_eq_some_iff _ _ _ answer id servedAttachment attachments
    rw [List.map_id] at attached
    have described : (∀ attachment ∈ attachments, answer attachment = some (servedAttachment attachment)) ↔
        ∀ attachment ∈ attachments, TakesTwoRows attachment.2 ∧ DescribedFile attachment.1 :=
      forall₂_congr each
    rw [isRead, servedBody, if_neg noAttachments, ← described, ← and_assoc, ← texts]
    constructor
    · intro same
      obtain ⟨bodies, isAnswer, same⟩ := Option.map_eq_some_iff.mp same
      obtain ⟨first, others⟩ := List.cons.inj (Body.multi.inj same).1
      exact ⟨first, attached.mp (others ▸ isAnswer)⟩
    · rintro ⟨first, others⟩
      rw [attached.mpr others, Option.map_some, first]

end Message

/-- A mail with a report. -/
def reportMail : Mail where
  id := some ⟨"list", "mail"⟩
  subject := "Report"
  sender := ⟨"Jane", "jane@example.org"⟩
  receivedDate := 1709210096000
  unread := true
  attachments := []

def reportDetails : MailDetails where
  body :=
    { compressedText := none
      text := some "<p>Dear colleagues, please find the report we spoke about attached.</p>" }

def reportFile : TutanotaFile := ⟨"report 2024.pdf", some "application/pdf", none⟩

theorem hasTutaIds_reportMail : HasTutaIds reportMail := by
  rintro id ⟨⟩
  decide

theorem readBodystructure_report : readBodystructure (Utf8.encode (computeBodystructure .ascii
      (mailToRfc2822 reportMail (some reportDetails) [(reportFile, List.replicate 60 0)]))) =
      some (servedBody reportMail (some reportDetails) [(reportFile, List.replicate 60 0)]) := by
  have safe : ∀ attachment ∈ [(reportFile, List.replicate 60 (0 : UInt8))], SafeFile attachment.1 := by
    refine List.forall_mem_singleton.mpr ⟨⟨by decide, by decide⟩, ⟨by decide, by decide⟩, by decide, ?_⟩
    rintro cid ⟨⟩
  have described : DescribedFile reportFile := ⟨by decide, by decide, by decide, by decide⟩
  exact (readBodystructure_mailToRfc2822_iff .ascii hasTutaIds_reportMail safe).2.mpr
    ⟨by decide +kernel, by decide +kernel, List.forall_mem_singleton.mpr ⟨by decide, described⟩⟩

/-- A mail without a body is not described. -/
theorem readBodystructure_no_body : HasTutaIds reportMail ∧
      readBodystructure (Utf8.encode (computeBodystructure .ascii (mailToRfc2822 reportMail none []))) ≠
        some (servedBody reportMail none []) := by
  refine ⟨hasTutaIds_reportMail, ?_⟩
  rw [readBodystructure_texts .ascii hasTutaIds_reportMail, servedBody, if_pos rfl]
  intro same
  have rows := (countedTexts_eq_iff .ascii reportMail (bodyText none)).mp (Option.some.inj same)
  exact absurd rows.2.1 (by decide)

end TutaBridge.Imap
