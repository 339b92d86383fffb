import TutaBridge.Mail.Bodystructure

/-!
# The body structure of a mail

What `compute_bodystructure` writes of a message that `mail_to_rfc2822` wrote: the structures of
the mail's two texts, and behind them one for every attachment.
-/

namespace TutaBridge.Mail

open TutaBridge.Std TutaBridge.Std.Text Tuta

/-! ## Files with safe heads -/

/-- A character of a token, in types and parameters. -/
def isTokenChar (char : Char) : Bool :=
  33 ≤ char.toNat && char.toNat < 127 && char ∉ "()<>@,;:\\\"/[]?=".toList

def IsToken (text : Text) : Prop := text ≠ [] ∧ text.all isTokenChar = true

/-- The type of a file before its slash. -/
def mainType (file : TutanotaFile) : Text := (mimeOf file).takeWhile (· ≠ '/')

/-- The type of a file behind its slash. -/
def fileSubtype (file : TutanotaFile) : Text := ((mimeOf file).dropWhile (· ≠ '/')).tail

/-- A file with a type of two tokens, a name written in characters that may stand in quotes and
a content id of one line. -/
structure SafeFile (file : TutanotaFile) : Prop where
  typeToken : IsToken (mainType file)
  subtypeToken : IsToken (fileSubtype file)
  quotable : (encodeHeaderValue file.name.toList).all isQuotable = true
  unbroken : ∀ cid, file.cid = some cid → Unbroken cid.toList

theorem plain_of_isTokenChar {char : Char} (token : isTokenChar char = true) :
    char.toNat < 128 ∧ isWhitespace char = false ∧ char ≠ ';' ∧ char ≠ '/' := by
  have small : char.toNat < 128 := by
    simp only [isTokenChar, Bool.and_eq_true, decide_eq_true_eq] at token
    omega
  have facts := @of_ascii (fun char => isTokenChar char = true →
    isWhitespace char = false ∧ char ≠ ';' ∧ char ≠ '/') (by decide) char small
  exact ⟨small, facts token⟩

theorem IsToken.plain {text : Text} (token : IsToken text) : ∀ char ∈ text,
    char.toNat < 128 ∧ isWhitespace char = false ∧ char ≠ ';' ∧ char ≠ '/' :=
  fun char mem => plain_of_isTokenChar (List.all_eq_true.mp token.2 char mem)

theorem IsToken.trim_eq {text : Text} (token : IsToken text) : trim text = text :=
  trim_eq_self fun char mem => (token.plain char mem).2.1

theorem trim_fileDisposition (file : TutanotaFile) : trim (fileDisposition file) = fileDisposition file := by
  have enclosed := @trim_append_enclosed 'a' '"' (by decide) (by decide) []
    ("ttachment; filename=\"".toList ++ encodeHeaderValue file.name.toList)
  unfold fileDisposition
  simpa [trimStart] using enclosed

theorem fileType_eq (file : TutanotaFile) : fileType file = mimeOf file ++ ';' :: ' ' ::
      ("name".toList ++ '=' :: '"' :: (encodeHeaderValue file.name.toList ++ ['"'])) := by
  have behind : "; name=\"".toList = ';' :: ' ' :: ("name".toList ++ ['=', '"']) := by decide
  unfold fileType
  simp only [behind, List.append_assoc, List.cons_append, List.nil_append]

theorem fileDisposition_eq (file : TutanotaFile) : fileDisposition file = "attachment".toList ++ ';' :: ' ' ::
      ("filename".toList ++ '=' :: '"' :: (encodeHeaderValue file.name.toList ++ ['"'])) := by
  have behind : "attachment; filename=\"".toList =
      "attachment".toList ++ ';' :: ' ' :: ("filename".toList ++ ['=', '"']) := by decide
  unfold fileDisposition
  simp only [behind, List.append_assoc, List.cons_append, List.nil_append]

namespace SafeFile

variable {file : TutanotaFile} (safe : SafeFile file)

include safe

theorem mimeOf_eq : mimeOf file = mainType file ++ '/' :: fileSubtype file := by
  have split := (@List.takeWhile_append_dropWhile _ (· ≠ '/') (mimeOf file)).symm
  cases behind : (mimeOf file).dropWhile (· ≠ '/') with
  | nil => exact absurd (by rw [fileSubtype, behind]; rfl) safe.subtypeToken.1
  | cons slash rest =>
    have notKept := List.head?_dropWhile_not (· ≠ '/') (mimeOf file)
    rw [behind, List.head?_cons] at notKept
    have isSlash : slash = '/' := by simpa using notKept
    rw [behind, isSlash] at split
    rw [mainType, fileSubtype, behind, List.tail_cons]
    exact split

theorem plain_mime : ∀ char ∈ mimeOf file, char.toNat < 128 ∧ isWhitespace char = false ∧ char ≠ ';' := by
  rw [safe.mimeOf_eq]
  refine List.forall_mem_append.mpr ⟨fun char mem => ?_, List.forall_mem_cons.mpr
    ⟨by decide, fun char mem => ?_⟩⟩
  · obtain ⟨ascii, visible, noMark, -⟩ := safe.typeToken.plain char mem
    exact ⟨ascii, visible, noMark⟩
  · obtain ⟨ascii, visible, noMark, -⟩ := safe.subtypeToken.plain char mem
    exact ⟨ascii, visible, noMark⟩

theorem ascii_fileType : ∀ char ∈ fileType file, char.toNat < 128 := by
  have name : ∀ char ∈ encodeHeaderValue file.name.toList, char.toNat < 128 := fun char mem =>
    (plain_of_isQuotable (List.all_eq_true.mp safe.quotable char mem)).1
  unfold fileType
  refine List.forall_mem_append.mpr ⟨List.forall_mem_append.mpr ⟨List.forall_mem_append.mpr
    ⟨fun char mem => (safe.plain_mime char mem).1, by decide⟩, name⟩, by decide⟩

theorem solid_attachmentFields : ∀ field ∈ attachmentFields file, isFieldName field.1 = true ∧ Unbroken field.2 := by
  have mime : Unbroken (mimeOf file) :=
    Unbroken.of_solid fun char mem => (safe.plain_mime char mem).2.1
  have name := unbroken_of_quotable safe.quotable
  have type : Unbroken (fileType file) := Unbroken.append_iff.mpr ⟨Unbroken.append_iff.mpr
    ⟨Unbroken.append_iff.mpr ⟨mime, by decide⟩, name⟩, by decide⟩
  have disposition : Unbroken (fileDisposition file) :=
    Unbroken.append_iff.mpr ⟨Unbroken.append_iff.mpr ⟨by decide, name⟩, by decide⟩
  intro field mem
  rcases List.mem_append.mp mem with isFixed | isId
  · simp only [List.mem_cons, List.not_mem_nil, or_false] at isFixed
    rcases isFixed with rfl | rfl | rfl
    · exact ⟨(by decide : isFieldName "Content-Type" = true), type⟩
    · exact ⟨(by decide : isFieldName "Content-Transfer-Encoding" = true), by decide⟩
    · exact ⟨(by decide : isFieldName "Content-Disposition" = true), disposition⟩
  · obtain ⟨cid, isCid, rfl⟩ := Option.map_eq_some_iff.mp (Option.mem_toList.mp isId)
    exact ⟨(by decide : isFieldName "Content-ID" = true), by simp [safe.unbroken cid isCid]⟩

/-- The head of a safe file's part is its fields. -/
theorem lines_attachmentHead : Text.lines (attachmentHead file) = fieldLines (attachmentFields file) :=
  lines_flatMap_crlf fun line mem =>
    (solid_fieldLines safe.solid_attachmentFields line mem).2

theorem keepsDelimiters (mail : Mail) : KeepsDelimiters mail file := by
  intro line mem
  rw [safe.lines_attachmentHead] at mem
  obtain ⟨field, inFields, rfl⟩ := List.mem_map.mp mem
  have begins : field.1.toList.head? = some 'C' := by
    rcases List.mem_append.mp inFields with isFixed | isId
    · simp only [List.mem_cons, List.not_mem_nil, or_false] at isFixed
      rcases isFixed with rfl | rfl | rfl <;> simp
    · obtain ⟨cid, -, rfl⟩ := Option.map_eq_some_iff.mp (Option.mem_toList.mp isId)
      simp
  exact isPrefixOf_line (by simp [headerLine, List.head?_append, begins])

theorem trim_fileType : trim (fileType file) = fileType file := by
  obtain ⟨head, rest, isMime⟩ : ∃ head rest, mimeOf file = head :: rest :=
    List.exists_cons_of_ne_nil (by rw [safe.mimeOf_eq]; simp)
  have visible := (safe.plain_mime head (isMime ▸ List.mem_cons_self)).2.1
  have enclosed := @trim_append_enclosed head '"' visible (by decide) []
    (rest ++ "; name=\"".toList ++ encodeHeaderValue file.name.toList)
  unfold fileType
  rw [isMime]
  simpa [trimStart] using enclosed

/-- The headers of a safe file's part are read as they are written. -/
theorem getHeader_attachmentFields :
    let headers := readFields (attachmentFields file)
    getHeader headers "content-type" = some (fileType file) ∧
      getHeader headers "content-transfer-encoding" = some "base64".toList ∧
      getHeader headers "content-disposition" = some (fileDisposition file) := by
  refine ⟨?_, ?_, ?_⟩
  · exact (getHeader_cons_self (by decide)).trans (congrArg some safe.trim_fileType)
  · refine (getHeader_cons_of_ne (by decide)).trans ((getHeader_cons_self (by decide)).trans ?_)
    decide
  · refine (getHeader_cons_of_ne (by decide)).trans ((getHeader_cons_of_ne (by decide)).trans ?_)
    exact (getHeader_cons_self (by decide)).trans (congrArg some (trim_fileDisposition file))

theorem valueHead_fileType : valueHead (fileType file) = mimeOf file := by
  have noMark : ';' ∉ mimeOf file := fun mem => (safe.plain_mime ';' mem).2.2 rfl
  have trimmed : trim (mimeOf file) = mimeOf file :=
    trim_eq_self fun char mem => (safe.plain_mime char mem).2.1
  rw [fileType_eq, valueHead_append noMark trimmed]

theorem parseTypeSubtype_fileType : parseTypeSubtype (fileType file) = (mainType file, fileSubtype file) := by
  have noSlash : '/' ∉ mainType file := fun mem => (safe.typeToken.plain '/' mem).2.2.2 rfl
  exact (parseTypeSubtype_eq (safe.valueHead_fileType.trans safe.mimeOf_eq) noSlash
    ⟨safe.typeToken.trim_eq, safe.subtypeToken.trim_eq⟩).1

end SafeFile

/-! ## Sizes -/

theorem length_feedLines (rows : List Text) : (feedLines rows).length = rows.flatten.length + rows.length := by
  induction rows with
  | nil => rfl
  | cons row rest ih =>
    simp only [feedLines_cons, List.flatten_cons, List.length_append, List.length_cons, ih]
    omega

theorem length_joinLines {rows : List Text} (notEmpty : rows ≠ []) :
    (joinLines rows).length + 2 = rows.flatten.length + 2 * rows.length := by
  have lengths : ∀ rows : List Text, (rows.flatMap fun row => row ++ ['\r', '\n']).length =
      rows.flatten.length + 2 * rows.length := by
    intro rows
    induction rows with
    | nil => rfl
    | cons row rest ih =>
      simp only [List.flatMap_cons, List.flatten_cons, List.length_append, List.length_cons,
        List.length_nil, ih]
      omega
  have joined := congrArg List.length (flatMap_append_eq_intercalate notEmpty ['\r', '\n'])
  rw [lengths, List.length_append] at joined
  exact joined.symm

/-- The text of the rows and how many there are. -/
theorem length_bodyRows (data : List UInt8) : (bodyRows data).flatten.length = 4 * ((data.length + 2) / 3) ∧
      (bodyRows data).length = max 1 ((4 * ((data.length + 2) / 3) + 75) / 76) := by
  have length := Base64.length_encodePadded Base64.standard data
  have count : (chunks 76 (Base64.encodePadded Base64.standard data).toList).length =
      (4 * ((data.length + 2) / 3) + 75) / 76 := by
    rw [chunks, List.length_map, List.length_range, length]
    omega
  have flat := congrArg List.length
    (flatten_chunks (by decide : 0 < 76) (Base64.encodePadded Base64.standard data).toList)
  unfold bodyRows
  dsimp only
  split
  next isEmpty =>
    rw [isEmpty] at count flat
    simp only [List.flatten_nil, List.length_nil] at count flat
    simp only [List.flatten_cons, List.flatten_nil, List.append_nil, List.length_nil, List.length_cons]
    omega
  next notEmpty =>
    have positive := List.length_pos_iff.mpr notEmpty
    rw [flat, length, count]
    omega

theorem ascii_bodyRows (data : List UInt8) : ∀ row ∈ bodyRows data, ∀ char ∈ row, char.toNat < 128 := by
  intro row isRow char inRow
  unfold bodyRows at isRow
  dsimp only at isRow
  split at isRow
  · rw [List.mem_singleton.mp isRow] at inRow
    cases inRow
  · exact ascii_base64 data char (mem_of_mem_chunks (by decide) isRow inRow)

/-- The size of a part as it is counted and as it is served. -/
theorem length_body (data : List UInt8) : (Utf8.encode (feedLines (bodyRows data))).length =
        (bodyRows data).flatten.length + (bodyRows data).length ∧
      (Utf8.encode (base64EncodeBody data)).length + 2 =
        (bodyRows data).flatten.length + 2 * (bodyRows data).length := by
  have ascii := ascii_bodyRows data
  have feeds : ∀ char ∈ feedLines (bodyRows data), char.toNat < 128 := by
    intro char mem
    obtain ⟨row, isRow, inRow⟩ := List.mem_flatMap.mp mem
    rcases List.mem_append.mp inRow with inText | isFeed
    · exact ascii row isRow char inText
    · rw [List.mem_singleton.mp isFeed]
      decide
  have served : ∀ char ∈ base64EncodeBody data ++ newline, char.toNat < 128 := by
    rw [base64EncodeBody_newline]
    intro char mem
    obtain ⟨row, isRow, inRow⟩ := List.mem_flatMap.mp mem
    rcases List.mem_append.mp inRow with inText | isBreak
    · exact ascii row isRow char inText
    · exact (by decide : ∀ char ∈ newline, char.toNat < 128) char isBreak
  have joined := length_joinLines (bodyRows_ne_nil data)
  rw [joinLines_bodyRows] at joined
  rw [Utf8.encode_ascii feeds, Utf8.encode_ascii fun char mem =>
    served char (List.mem_append_left _ mem), List.length_map, List.length_map]
  exact ⟨length_feedLines _, joined⟩

/-- The size is that of the served body for two rows and for no other number of them. -/
theorem size_agrees_iff (data : List UInt8) :
    (Utf8.encode (feedLines (bodyRows data))).length = (Utf8.encode (base64EncodeBody data)).length ↔
      58 ≤ data.length ∧ data.length ≤ 114 := by
  obtain ⟨flat, count⟩ := length_bodyRows data
  obtain ⟨counted, served⟩ := length_body data
  omega

theorem countLines_feedLines {rows : List Text} (unbroken : ∀ row ∈ rows, Unbroken row) :
    countLines (feedLines rows) = rows.length := by
  induction rows with
  | nil => rfl
  | cons row rest ih =>
    obtain ⟨first, unbroken⟩ := List.forall_mem_cons.mp unbroken
    have noFeed : row.count '\n' = 0 :=
      List.count_eq_zero.mpr fun mem => ((Unbroken.iff_forall.mp first) '\n' mem).2 rfl
    have later := ih unbroken
    rw [countLines] at later ⊢
    rw [feedLines_cons, List.count_append, noFeed, List.count_cons_self, later, List.length_cons]
    omega

theorem ne_nil_of_mem_chunks {width : Nat} {text row : Text} (mem : row ∈ chunks width text) : row ≠ [] := by
  obtain ⟨place, inRange, rfl⟩ := List.mem_map.mp mem
  rw [List.mem_range] at inRange
  have positive : 0 < width := by
    rw [Nat.pos_iff_ne_zero]
    rintro rfl
    rw [Nat.div_zero] at inRange
    exact Nat.not_lt_zero _ inRange
  have begins : place * width < text.length := by
    have bound := (Nat.le_div_iff_mul_le positive).mp inRange
    rw [Nat.succ_mul] at bound
    omega
  rw [← List.length_pos_iff, List.length_take, List.length_drop]
  omega

/-- The rows of a body are its lines, unless there are none. -/
theorem lines_base64EncodeBody {data : List UInt8} (notEmpty : data ≠ []) :
    Text.lines (base64EncodeBody data) = bodyRows data := by
  have solid : ∀ row ∈ bodyRows data, row ≠ [] ∧ Unbroken row := by
    have positive := List.length_pos_iff.mpr notEmpty
    have flat := (length_bodyRows data).1
    intro row mem
    refine ⟨?_, (solid_bodyRows data row mem).1⟩
    unfold bodyRows at mem flat
    dsimp only at mem flat
    split at mem
    next isEmpty =>
      rw [if_pos isEmpty] at flat
      simp only [List.flatten_cons, List.flatten_nil, List.append_nil, List.length_nil] at flat
      omega
    next => exact ne_nil_of_mem_chunks mem
  rw [← joinLines_bodyRows, lines_joinLines solid]

/-! ## Structures of a mail -/

section Message

variable (casing : Casing)

/-- Several parts, from their structures. -/
def wrapped (parts subtype boundary : Text) : Text :=
  '(' :: parts ++ ' ' :: quoted subtype ++ " (\"BOUNDARY\" ".toList ++ quoted boundary ++ "))".toList

/-- The structure of a text of a mail. -/
def textStructure (subtype : String) (data : List UInt8) : Text :=
  singlePartStructure casing ("text/".toList ++ subtype.toList ++ "; charset=UTF-8".toList)
    "base64".toList (feedLines (bodyRows data)) (readFields (textFields subtype))

/-- The structure of the two texts of a mail. -/
def textsStructure (mail : Mail) (html : Text) : Text :=
  wrapped (textStructure casing "plain" (Utf8.encode (htmlToText html)) ++
    textStructure casing "html" (Utf8.encode html)) "ALTERNATIVE".toList (buildAltBoundary mail)

/-- The structure of an attachment. -/
def attachmentStructure (fuel : Nat) (attachment : TutanotaFile × List UInt8) : Text :=
  bodystructureFor casing fuel (fileType attachment.1) "base64".toList
    (feedLines (bodyRows attachment.2)) (readFields (attachmentFields attachment.1))

/-- A part is read with the head that was written. -/
theorem partStructure_lines (structureFor : Text → Text → Text → List (Text × Text) → Text)
    {fields : List (String × Text)} (notEmpty : fields ≠ [])
    (solid : ∀ field ∈ fields, isFieldName field.1 = true ∧ Unbroken field.2) {body : List Text}
    (unbroken : ∀ line ∈ body, Unbroken line) :
    partStructure casing structureFor (feedLines (fieldLines fields ++ [] :: body)) =
      structureFor ((getHeader (readFields fields) "content-type").getD "text/plain".toList)
        ((getHeader (readFields fields) "content-transfer-encoding").getD "7bit".toList)
        (feedLines body) (readFields fields) := by
  rw [partStructure, splitHeadersBody_feedLines notEmpty solid unbroken]
  dsimp only
  rw [parseHeaders_joinFeeds casing solid]

theorem unbroken_bodyRows (data : List UInt8) : ∀ row ∈ bodyRows data, Unbroken row :=
  fun row mem => (solid_bodyRows data row mem).1

/-- A part of one is not asked for more. -/
theorem bodystructureFor_single {contentType : Text}
    (single : "multipart/".toList.isPrefixOf (casing.toLowercase contentType) = false) (fuel : Nat)
    (encoding body : Text) (headers : List (Text × Text)) :
    bodystructureFor casing fuel contentType encoding body headers =
      singlePartStructure casing contentType encoding body headers := by
  cases fuel with
  | zero => rfl
  | succ fuel => rw [bodystructureFor, single, if_neg (by decide)]

theorem partStructure_text (fuel : Nat) {subtype : String} (isText : subtype = "plain" ∨ subtype = "html")
    (data : List UInt8) :
    partStructure casing (bodystructureFor casing fuel) (feedLines (textLines subtype data)) =
      textStructure casing subtype data := by
  have facts : Unbroken subtype.toList ∧ getHeader (readFields (textFields subtype)) "content-type" =
        some ("text/".toList ++ subtype.toList ++ "; charset=UTF-8".toList) ∧
      getHeader (readFields (textFields subtype)) "content-transfer-encoding" = some "base64".toList ∧
      (∀ char ∈ "text/".toList ++ subtype.toList ++ "; charset=UTF-8".toList, char.toNat < 128) ∧
      "multipart/".toList.isPrefixOf
        (("text/".toList ++ subtype.toList ++ "; charset=UTF-8".toList).map Char.toLower) = false := by
    rcases isText with rfl | rfl <;> decide
  obtain ⟨unbroken, isType, isEncoding, ascii, single⟩ := facts
  have notEmpty : textFields subtype ≠ [] := List.cons_ne_nil _ _
  rw [textLines, partStructure_lines casing _ notEmpty (solid_textFields unbroken)
    (unbroken_bodyRows data), isType, isEncoding, Option.getD_some, Option.getD_some,
    bodystructureFor_single casing (by rw [casing.toLowercase_ascii _ ascii, single]), textStructure]

theorem partStructure_attachment (fuel : Nat) {attachment : TutanotaFile × List UInt8}
    (safe : SafeFile attachment.1) :
    partStructure casing (bodystructureFor casing fuel) (feedLines (attachmentLines attachment)) =
      attachmentStructure casing fuel attachment := by
  obtain ⟨isType, isEncoding, -⟩ := safe.getHeader_attachmentFields
  rw [attachmentLines, safe.lines_attachmentHead, partStructure_lines casing _
    (by simp [attachmentFields]) safe.solid_attachmentFields (unbroken_bodyRows attachment.2), isType,
    isEncoding]
  rfl

/-- The Content-Type of several parts begins with `multipart/`. -/
theorem isPrefixOf_multipartType (head : Multipart) :
    "multipart/".toList.isPrefixOf (casing.toLowercase (multipartType head.subtype head.boundary)) =
      true := by
  have lower : "multipart/".toList.map Char.toLower = "multipart/".toList := by decide
  have isLower : casing.toLowercase (multipartType head.subtype head.boundary) = "multipart/".toList ++
      (head.subtype.toList ++ ("; boundary=\"".toList ++ (head.boundary ++ ['"']))).map Char.toLower := by
    rw [casing.toLowercase_ascii _ (ascii_multipartType head)]
    unfold multipartType
    rw [List.append_assoc, List.append_assoc, List.append_assoc, List.map_append, lower]
  exact isLower ▸ List.isPrefixOf_iff_prefix.mpr (List.prefix_append _ _)

/-- Several parts are cut apart at their boundary. -/
theorem bodystructureFor_multi (head : Multipart) (fuel : Nat) (encoding body : Text) (headers : List (Text × Text)) :
    bodystructureFor casing (fuel + 1) (multipartType head.subtype head.boundary) encoding body headers =
      wrapped ((splitMimeParts body head.boundary).flatMap (partStructure casing (bodystructureFor casing fuel)))
        (head.subtype.toList.map Char.toUpper) head.boundary := by
  have begins := isPrefixOf_multipartType casing head
  obtain ⟨subtype, boundary, isSubtype, hasBoundary, quotable⟩ := head
  have plain := fun char => @plain_of_mem_name subtype isSubtype char
  have noMark : ';' ∉ "multipart".toList ++ '/' :: subtype.toList := by
    have inSubtype : ';' ∉ subtype.toList := fun mem =>
      ((solid_of_isFieldName isSubtype).2 ';' mem).elim (fun letter => absurd letter (by decide))
        fun same => absurd same (by decide)
    have inType : ';' ∉ "multipart".toList := by decide
    simp only [List.mem_append, List.mem_cons, not_or]
    exact ⟨inType, by decide, inSubtype⟩
  have trimmed : trim ("multipart".toList ++ '/' :: subtype.toList) =
      "multipart".toList ++ '/' :: subtype.toList :=
    trim_eq_self (List.forall_mem_append.mpr ⟨by decide, List.forall_mem_cons.mpr
      ⟨by decide, fun char mem => (plain char mem).2.1⟩⟩)
  have isType : multipartType subtype boundary = "multipart".toList ++ '/' :: subtype.toList ++
      ';' :: (" boundary=\"".toList ++ boundary ++ ['"']) := by
    have type : "multipart/".toList = "multipart".toList ++ ['/'] := by decide
    have behind : "; boundary=\"".toList = ';' :: " boundary=\"".toList := by decide
    unfold multipartType
    simp only [type, behind, List.append_assoc, List.cons_append, List.nil_append]
  have isHead : valueHead (multipartType subtype boundary) = "multipart".toList ++ '/' :: subtype.toList := by
    rw [isType, valueHead_append noMark trimmed]
  have isSubtype' := (parseTypeSubtype_eq isHead (by decide) ⟨by decide,
    trim_eq_self fun char mem => (plain char mem).2.1⟩).2
  rw [bodystructureFor, begins, if_pos rfl, multipartStructure,
    extractBoundary_multipartType casing isSubtype hasBoundary quotable, isSubtype', Option.getD_some,
    Option.getD_some, if_neg hasBoundary, casing.toUppercase_ascii fun char mem => (plain char mem).1]
  rfl

section Computed

variable {mail : Mail} {details : Option MailDetails}
  {attachments : List (TutanotaFile × List UInt8)}

theorem quotable_tutaId {id : String} (isId : isTutaId id = true) : ∀ char ∈ id.toList, isQuotable char = true := by
  have digits : ∀ char ∈ MailSetEntryId.base64Ext, isQuotable char = true := by decide
  intro char mem
  exact digits char (by simpa using List.all_eq_true.mp isId char mem)

theorem quotable_boundaries (ids : HasTutaIds mail) :
    (buildBoundary mail).all isQuotable = true ∧ (buildAltBoundary mail).all isQuotable = true := by
  unfold buildBoundary buildAltBoundary
  cases known : mail.id with
  | none => decide
  | some id =>
    obtain ⟨list, element⟩ := ids id known
    have ofMail : ∀ char ∈ id.listId.toList ++ '_' :: id.elementId.toList, isQuotable char = true :=
      List.forall_mem_append.mpr ⟨quotable_tutaId list, List.forall_mem_cons.mpr
        ⟨by decide, quotable_tutaId element⟩⟩
    have mixed : ∀ char ∈ "=_TutaBridge_".toList, isQuotable char = true := by decide
    have alternative : ∀ char ∈ "=_TutaBridgeAlt_".toList, isQuotable char = true := by decide
    simp only [List.all_eq_true, List.append_assoc]
    exact ⟨List.forall_mem_append.mpr ⟨mixed, ofMail⟩, List.forall_mem_append.mpr ⟨alternative, ofMail⟩⟩

theorem boundaries_ne_nil (mail : Mail) : buildBoundary mail ≠ [] ∧ buildAltBoundary mail ≠ [] := by
  unfold buildBoundary buildAltBoundary
  cases mail.id with
  | none => decide
  | some id => exact ⟨List.cons_ne_nil _ _, List.cons_ne_nil _ _⟩

/-- The head of a message with attachments. -/
def mixedHead (ids : HasTutaIds mail) : Multipart :=
  ⟨"mixed", buildBoundary mail, by decide, (boundaries_ne_nil mail).1, (quotable_boundaries ids).1⟩

/-- The head of the texts of a mail. -/
def alternativeHead (ids : HasTutaIds mail) : Multipart :=
  ⟨"alternative", buildAltBoundary mail, by decide, (boundaries_ne_nil mail).2, (quotable_boundaries ids).2⟩

/-- The texts of a mail, by the lines they are written in. -/
theorem bodystructureFor_texts (ids : HasTutaIds mail) {html body : Text}
    (isBody : Text.lines body = alternativeLines (buildAltBoundary mail) (htmlToText html) html)
    (fuel : Nat) (encoding : Text) (headers : List (Text × Text)) :
    bodystructureFor casing (fuel + 1) (multipartType "alternative" (buildAltBoundary mail)) encoding
      body headers = textsStructure casing mail html := by
  have multi := bodystructureFor_multi casing (alternativeHead ids) fuel encoding body headers
  have upper : "alternative".toList.map Char.toUpper = "ALTERNATIVE".toList := by decide
  have cut : splitMimeParts body (buildAltBoundary mail) =
      [feedLines (textLines "plain" (Utf8.encode (htmlToText html))),
        feedLines (textLines "html" (Utf8.encode html))] := by
    rw [splitMimeParts, isBody, mimePartsFrom_alternativeLines]
  rw [alternativeHead] at multi
  rw [multi, cut, upper, List.flatMap_cons, List.flatMap_singleton,
    partStructure_text casing fuel (.inl rfl), partStructure_text casing fuel (.inr rfl),
    textsStructure]

/-- The headers before the Content-Type of a message. -/
theorem lacks_contentType (mail : Mail) (details : Option MailDetails) :
    Lacks ([("Date", formatRfc2822Date mail.receivedDate), ("From", formatAddress mail.sender),
      ("Subject", encodeHeaderValue mail.subject.toList)] ++
      (match details with
        | some details =>
          addressField "To" (details.recipients.toRecipients.map formatAddress) ++
            addressField "Cc" (details.recipients.ccRecipients.map formatAddress) ++
            addressField "Reply-To" ((replyToAddresses details).map fun replyTo =>
              formatNameAndAddress replyTo.1 replyTo.2)
        | none => (mail.firstRecipient.map fun first => ("To", formatAddress first)).toList) ++
      (mail.id.map fun id =>
        ("Message-ID", '<' :: (id.listId.toList ++ '.' :: (id.elementId.toList ++
          "@tutabridge.local>".toList)))).toList) "content-type" := by
  have others : ∀ header ∈ ["Date", "From", "Subject", "To", "Cc", "Reply-To", "Message-ID"],
      header.toList.map Char.toLower ≠ "content-type".toList := by decide
  refine Lacks.append (Lacks.append ?_ ?_) ?_
  · intro field mem
    refine others field.1 ?_
    simp only [List.mem_cons, List.not_mem_nil, or_false] at mem
    rcases mem with rfl | rfl | rfl <;> simp
  · cases details with
    | none =>
      intro field mem
      obtain ⟨first, -, rfl⟩ := Option.map_eq_some_iff.mp (Option.mem_toList.mp mem)
      exact others "To" (by simp)
    | some details =>
      exact ((Lacks.addressField (others "To" (by simp)) _).append
        (Lacks.addressField (others "Cc" (by simp)) _)).append
          (Lacks.addressField (others "Reply-To" (by simp)) _)
  · intro field mem
    obtain ⟨id, -, rfl⟩ := Option.map_eq_some_iff.mp (Option.mem_toList.mp mem)
    exact others "Message-ID" (by simp)

theorem getHeader_messageFields (mail : Mail) (details : Option MailDetails)
    (attachments : List (TutanotaFile × List UInt8)) :
    getHeader (readFields (messageFields mail details attachments)) "content-type" =
      some (trim (messageType mail attachments)) := by
  have behind : getHeader (readFields
      [("MIME-Version", "1.0".toList), ("Content-Type", messageType mail attachments)]) "content-type" =
      some (trim (messageType mail attachments)) := by
    rw [getHeader_cons_of_ne (by decide), getHeader_cons_self (by decide)]
  exact (getHeader_append (lacks_contentType mail details)).trans behind

/-- The structure of a message is that of its body, by its Content-Type. -/
theorem computeBodystructure_mailToRfc2822 (ids : HasTutaIds mail) :
    ∃ encoding headers, computeBodystructure casing (mailToRfc2822 mail details attachments) =
      bodystructureFor casing ((messageBody mail details attachments).length + 1)
        (messageType mail attachments) encoding (messageBody mail details attachments) headers := by
  obtain ⟨isRead, isSection, -, -, isSplit⟩ := mailToRfc2822_headers casing ids details attachments
  have trimmed : trim (messageType mail attachments) = messageType mail attachments := by
    unfold messageType
    split
    · exact trim_multipartType (alternativeHead ids)
    · exact trim_multipartType (mixedHead ids)
  have isType := getHeader_messageFields mail details attachments
  let headers := readFields (messageFields mail details attachments)
  refine ⟨(getHeader headers "content-transfer-encoding").getD "7bit".toList, headers, ?_⟩
  rw [computeBodystructure, isSplit]
  dsimp only
  rw [← isSection, isRead, isType, trimmed, Option.getD_some]

theorem computeBodystructure_texts (ids : HasTutaIds mail) :
    computeBodystructure casing (mailToRfc2822 mail details []) = textsStructure casing mail (bodyText details) := by
  have unbroken := unbroken_alternativeLines (unbroken_boundaries ids).2 (htmlToText (bodyText details))
    (bodyText details)
  have isBody : Text.lines (messageBody mail details []) = alternativeLines (buildAltBoundary mail)
      (htmlToText (bodyText details)) (bodyText details) := by
    rw [messageBody, if_pos rfl, alternativeParts_eq]
    exact lines_flatMap_crlf unbroken
  obtain ⟨encoding, headers, isComputed⟩ :=
    @computeBodystructure_mailToRfc2822 casing mail details [] ids
  rw [isComputed, messageType, if_pos rfl, bodystructureFor_texts casing ids isBody]

theorem computeBodystructure_mixed (ids : HasTutaIds mail) (hasAttachments : attachments ≠ [])
    (safe : ∀ attachment ∈ attachments, SafeFile attachment.1) :
    ∃ fuel, computeBodystructure casing (mailToRfc2822 mail details attachments) =
      wrapped (textsStructure casing mail (bodyText details) ++
        attachments.flatMap (attachmentStructure casing (fuel + 1))) "MIXED".toList (buildBoundary mail) := by
  obtain ⟨encoding, headers, isComputed⟩ :=
    @computeBodystructure_mailToRfc2822 casing mail details attachments ids
  obtain ⟨fuel, isLength⟩ : ∃ fuel, (messageBody mail details attachments).length = fuel + 1 := by
    refine ⟨_, (Nat.succ_pred_eq_of_pos (List.length_pos_iff.mpr ?_)).symm⟩
    intro isEmpty
    have lines := @lines_messageBody mail details attachments ids hasAttachments
    rw [isEmpty] at lines
    cases lines
  have multi := bodystructureFor_multi casing (mixedHead ids) (fuel + 1) encoding
    (messageBody mail details attachments) headers
  have upper : "mixed".toList.map Char.toUpper = "MIXED".toList := by decide
  have cut := @splitMimeParts_messageBody mail details attachments ids hasAttachments
    fun attachment mem => (safe attachment mem).keepsDelimiters mail
  have alternative : partStructure casing (bodystructureFor casing (fuel + 1))
      (feedLines (alternativePart mail (bodyText details))) =
        textsStructure casing mail (bodyText details) := by
    have unbroken := unbroken_alternativeLines (unbroken_boundaries ids).2
      (htmlToText (bodyText details)) (bodyText details)
    have isType := getHeader_field (alternativeHead ids)
    have read := partStructure_lines casing (bodystructureFor casing (fuel + 1))
      (List.cons_ne_nil _ _) (solid_field (alternativeHead ids)) unbroken
    rw [isType, Option.getD_some] at read
    refine read.trans ?_
    exact bodystructureFor_texts casing ids (lines_feedLines unbroken) fuel _ _
  have others : ((attachments.map attachmentLines).map feedLines).flatMap
      (partStructure casing (bodystructureFor casing (fuel + 1))) =
        attachments.flatMap (attachmentStructure casing (fuel + 1)) := by
    rw [List.flatMap_map, List.flatMap_map]
    exact List.flatMap_congr fun attachment mem =>
      partStructure_attachment casing (fuel + 1) (safe attachment mem)
  refine ⟨fuel, ?_⟩
  rw [mixedHead] at multi
  rw [isComputed, messageType, if_neg hasAttachments, isLength, multi, cut, upper, mailSections,
    List.map_cons, List.flatMap_cons, alternative, others]

end Computed

end Message

end TutaBridge.Mail
