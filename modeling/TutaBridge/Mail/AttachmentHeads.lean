import Mathlib.Data.List.Forall2
import TutaBridge.Mail.MailStructure
import TutaBridge.Mail.OpenedFields

/-!
# The heads of attachments

Three texts of the sender stand in the head of an attachment's part: the type of the file, its
name and its content id. Only the name is encoded, and only where it is not ASCII. What is read
of the part is what was meant exactly as long as the type and the content id bring no line of
their own that is read and the name has no quote in it.
-/

namespace TutaBridge.Mail

open TutaBridge.Std TutaBridge.Std.Text Tuta

/-! ## What is meant -/

/-- The fields of an attachment's part, as they are read. -/
def attachmentFieldNames (file : TutanotaFile) : List Text :=
  ["content-type".toList, "content-transfer-encoding".toList, "content-disposition".toList] ++
    (file.cid.map fun _ => "content-id".toList).toList

section Meaning

variable (casing : Casing)

/-- The part of an attachment: its fields, its name and its bytes. -/
structure IsAttachmentPart (attachment : TutanotaFile × List UInt8) (part : Text) : Prop where
  fields : (parseHeaders casing (splitHeadersBody part).1).map Prod.fst = attachmentFieldNames attachment.1
  filename : (extractParam casing ((getHeader (parseHeaders casing (splitHeadersBody part).1)
    "content-disposition").getD []) "filename").map (decodeHeaderValue casing) = some attachment.1.name.toList
  data : decodeBase64Lines (splitHeadersBody part).2 = some attachment.2

/-- The part of a mail's texts. -/
def IsAlternativePart (mail : Mail) (part : Text) : Prop :=
  getHeader (parseHeaders casing (splitHeadersBody part).1) "content-type" =
    some (multipartType "alternative" (buildAltBoundary mail))

/-- The parts at the outer boundary of a message. Without attachments there is none: the whole
message is the part of the texts. -/
def outerParts (mail : Mail) (details : Option MailDetails)
    (attachments : List (TutanotaFile × List UInt8)) : List Text :=
  let message := mailToRfc2822 mail details attachments
  if attachments = [] then [message]
  else splitMimeParts (splitHeadersBody message).2 (buildBoundary mail)

/-- A message is the part of its texts and one part for every attachment, in order. -/
def PartsHold (mail : Mail) (details : Option MailDetails)
    (attachments : List (TutanotaFile × List UInt8)) : Prop :=
  ∃ alternative parts, outerParts mail details attachments = alternative :: parts ∧
    IsAlternativePart casing mail alternative ∧
    List.Forall₂ (IsAttachmentPart casing) attachments parts

/-- A file whose type, name and content id stay where they are written. -/
structure SoundFile (file : TutanotaFile) : Prop where
  hasName : file.name.toList ≠ []
  plainName : isAscii file.name.toList = true → hasBreak file.name.toList = false →
    '"' ∉ file.name.toList ∧ trim file.name.toList = file.name.toList ∧ HasNoWord casing file.name.toList
  oneHead : ∀ ending ∈ headEnds, contains (joinFeeds (Text.lines (attachmentHead file))) ending = false
  opensNothing : ∀ field ∈ attachmentFields file, ∀ line ∈ (headRows field).tail, fieldName? line = none

end Meaning

/-- No line of the head of a file's part is taken for the closing delimiter. -/
def KeepsOpen (mail : Mail) (file : TutanotaFile) : Prop :=
  ∀ line ∈ Text.lines (attachmentHead file),
    ("--".toList ++ buildBoundary mail ++ "--".toList).isPrefixOf line = false

/-! ## The name of a file -/

section Name

variable {casing : Casing} {file : TutanotaFile}

/-- What is written of a name is ASCII. -/
theorem ascii_encodeHeaderValue (text : Text) : ∀ char ∈ encodeHeaderValue text, char.toNat < 128 := by
  rw [encodeHeaderValue_eq]
  split
  next plain =>
    rw [Bool.and_eq_true, isAscii, List.all_eq_true] at plain
    exact fun char mem => of_decide_eq_true (plain.1 char mem)
  next =>
    have word : ∀ char ∈ base64Text text, char.toNat < 128 := ascii_base64 _
    refine List.forall_mem_cons.mpr ⟨by decide, List.forall_mem_cons.mpr ⟨by decide,
      List.forall_mem_append.mpr ⟨by decide, List.forall_mem_cons.mpr ⟨by decide, ?_⟩⟩⟩⟩
    exact List.forall_mem_append.mpr ⟨by decide, List.forall_mem_cons.mpr ⟨by decide,
      List.forall_mem_append.mpr ⟨word, by decide⟩⟩⟩

/-- The name that is read is what stands before its first quote. -/
theorem extractParam_fileDisposition (file : TutanotaFile) :
    extractParam casing (fileDisposition file) "filename" =
      if (encodeHeaderValue file.name.toList).takeWhile (· ≠ '"') = [] then none
      else some ((encodeHeaderValue file.name.toList).takeWhile (· ≠ '"')) := by
  have ascii := ascii_encodeHeaderValue file.name.toList
  have needle : casing.toLowercase "filename".toList ++ ['='] = "filename".toList ++ ['='] := by
    rw [casing.toLowercase_ascii _ (by decide)]
    decide
  have written : fileDisposition file = "attachment; ".toList ++ "filename".toList ++
      '=' :: '"' :: (encodeHeaderValue file.name.toList ++ ['"']) := by
    rw [fileDisposition_eq]
    rfl
  generalize encodeHeaderValue file.name.toList = name at ascii written
  have cut : ∃ behind, name ++ ['"'] = name.takeWhile (· ≠ '"') ++ '"' :: behind ∧
      ∀ char ∈ behind, char.toNat < 128 := by
    have split := @List.takeWhile_append_dropWhile _ (· ≠ '"') name
    cases rest : name.dropWhile (· ≠ '"') with
    | nil =>
      rw [rest, List.append_nil] at split
      exact ⟨[], by rw [split], List.forall_mem_nil _⟩
    | cons quote behind =>
      have notKept := List.head?_dropWhile_not (· ≠ '"') name
      rw [rest, List.head?_cons] at notKept
      have isQuote : quote = '"' := by simpa using notKept
      rw [rest, isQuote] at split
      have inName : ∀ char ∈ '"' :: behind, char ∈ name :=
        fun char mem => split ▸ List.mem_append_right _ mem
      refine ⟨behind ++ ['"'], ?_, List.forall_mem_append.mpr
        ⟨fun char mem => ascii char (inName char (List.mem_cons_of_mem _ mem)), by decide⟩⟩
      rw [← List.cons_append, ← List.append_assoc, split]
  obtain ⟨behind, isName, asciiBehind⟩ := cut
  have noQuote : '"' ∉ name.takeWhile (· ≠ '"') := fun mem => by
    simpa using List.mem_takeWhile_imp mem
  rw [extractParam, needle, written, isName]
  refine parameterValue_quote casing (by decide) (by decide) (by decide) ?_ noQuote
  exact List.forall_mem_append.mpr ⟨fun char mem => ascii char (List.takeWhile_subset _ mem),
    List.forall_mem_cons.mpr ⟨by decide, asciiBehind⟩⟩

/-- The name is read as it was exactly where it is written without a quote and nothing in it is
taken for an encoded word. -/
theorem filename_read_iff (file : TutanotaFile) :
    (extractParam casing (fileDisposition file) "filename").map (decodeHeaderValue casing) =
        some file.name.toList ↔
      file.name.toList ≠ [] ∧ (isAscii file.name.toList = true → hasBreak file.name.toList = false →
        '"' ∉ file.name.toList ∧ trim file.name.toList = file.name.toList ∧
          HasNoWord casing file.name.toList) := by
  rw [extractParam_fileDisposition, encodeHeaderValue_eq]
  generalize file.name.toList = name
  by_cases plain : isAscii name = true ∧ hasBreak name = false
  · have ascii : ∀ char ∈ name, char.toNat < 128 :=
      fun char mem => of_decide_eq_true (List.all_eq_true.mp plain.1 char mem)
    have isPlain : (isAscii name && !hasBreak name) = true := by simp [plain.1, plain.2]
    have self := @decodeHeaderValue_eq_self_iff casing name ascii
    rw [if_pos isPlain]
    by_cases noQuote : '"' ∈ name
    · -- what is read is shorter than the name
      refine iff_of_false (fun read => ?_) fun both => (both.2 plain.1 plain.2).1 noQuote
      have shorter : (name.takeWhile (· ≠ '"')).length < name.length := by
        refine lt_of_le_of_ne (List.takeWhile_prefix _).length_le fun same => ?_
        have whole := (List.takeWhile_prefix _).eq_of_length same
        have kept := List.takeWhile_eq_self_iff.mp whole '"' noQuote
        simp at kept
      have notLonger := @length_decodeHeaderValue_le casing (name.takeWhile (· ≠ '"'))
        fun char mem => ascii char (List.takeWhile_subset _ mem)
      split at read
      next => cases read
      next =>
        rw [Option.map_some, Option.some_inj] at read
        rw [read] at notLonger
        omega
    · have whole : name.takeWhile (· ≠ '"') = name := List.takeWhile_eq_self_iff.mpr
        fun char mem => by simpa using fun same : char = '"' => noQuote (same ▸ mem)
      rw [whole]
      by_cases isEmpty : name = []
      · simp [isEmpty]
      · rw [if_neg isEmpty, Option.map_some, Option.some_inj, self]
        exact ⟨fun reads => ⟨isEmpty, fun _ _ => ⟨noQuote, reads⟩⟩,
          fun both => (both.2 plain.1 plain.2).2⟩
  · have isWord : ¬ (isAscii name && !hasBreak name) = true := by
      simpa [Bool.and_eq_true] using plain
    have noQuote : ∀ char ∈ '=' :: '?' :: wordTail (base64Text name), char ≠ '"' := by
      have encoded : '"' ∉ base64Text name := not_mem_base64Text (by decide) (by decide) name
      intro char mem same
      subst same
      simp only [wordTail, List.mem_cons, List.mem_append, encoded, List.not_mem_nil] at mem
      revert mem
      decide
    have whole : ('=' :: '?' :: wordTail (base64Text name)).takeWhile (· ≠ '"') =
        '=' :: '?' :: wordTail (base64Text name) := List.takeWhile_eq_self_iff.mpr
      fun char mem => by simpa using noQuote char mem
    have notEmpty : name ≠ [] := by
      rintro rfl
      exact plain ⟨rfl, rfl⟩
    rw [if_neg isWord, whole, if_neg (List.cons_ne_nil _ _), Option.map_some, decodeHeaderValue_word]
    simp only [notEmpty, ne_eq, not_false_iff, true_and]
    exact iff_of_true trivial fun ascii unbroken => absurd ⟨ascii, unbroken⟩ plain

end Name

/-! ## The lines of a head -/

section Lines

variable {file : TutanotaFile}

theorem lines_attachmentHead_eq (file : TutanotaFile) :
    Text.lines (attachmentHead file) = (attachmentFields file).flatMap headRows :=
  lines_flatMap_headerLine (attachmentFields file)

theorem type_mem_attachmentFields (file : TutanotaFile) :
    ("Content-Type", fileType file) ∈ attachmentFields file :=
  List.mem_cons_self

theorem isFieldName_attachmentFields (file : TutanotaFile) :
    ∀ field ∈ attachmentFields file, isFieldName field.1 = true := by
  have names : ∀ name ∈ ["Content-Type", "Content-Transfer-Encoding", "Content-Disposition",
      "Content-ID"], isFieldName name = true := by decide
  intro field mem
  rcases List.mem_append.mp mem with isFixed | isId
  · simp only [List.mem_cons, List.not_mem_nil, or_false] at isFixed
    rcases isFixed with rfl | rfl | rfl <;> exact names _ (by simp)
  · obtain ⟨cid, -, rfl⟩ := Option.map_eq_some_iff.mp (Option.mem_toList.mp isId)
    exact names _ (by simp)

theorem unbroken_fileDisposition (file : TutanotaFile) : Unbroken (fileDisposition file) := by
  have name := unbroken_encodeHeaderValue file.name.toList
  unfold fileDisposition
  exact Unbroken.append_iff.mpr ⟨Unbroken.append_iff.mpr ⟨by decide, name⟩, by decide⟩

/-- The last line of a head ends with a quote or a bracket. -/
theorem exists_lines_attachmentHead (file : TutanotaFile) : ∃ front line mark, (mark = '"' ∨ mark = '>') ∧
      Text.lines (attachmentHead file) = front ++ [line ++ [mark]] := by
  obtain ⟨fields, name, value, mark, isMark, isFields⟩ : ∃ fields name value mark,
      (mark = '"' ∨ mark = '>') ∧ attachmentFields file = fields ++ [(name, value ++ [mark])] := by
    unfold attachmentFields
    cases file.cid with
    | none => exact ⟨[_, _], _, _, '"', .inl rfl, rfl⟩
    | some cid => exact ⟨[_, _, _], _, '<' :: cid.toList, '>', .inr rfl, rfl⟩
  have visible : mark ≠ '\r' ∧ mark ≠ '\n' := by
    rcases isMark with rfl | rfl <;> decide
  obtain ⟨before, line, isLines⟩ := exists_lines_concat visible (headerLine name value)
  refine ⟨fields.flatMap headRows ++ before, line, mark, isMark, ?_⟩
  rw [lines_attachmentHead_eq, isFields, List.flatMap_append, List.flatMap_singleton, headRows_concat,
    isLines, List.append_assoc]

end Lines

/-! ## How a head is read -/

section Reading

variable {casing : Casing} {file : TutanotaFile}

/-- The fields that are read of a head are those that its lines open. -/
theorem parseHeaders_attachmentHead (casing : Casing) (file : TutanotaFile) :
    parseHeaders casing (joinFeeds (Text.lines (attachmentHead file))) = readRows casing (attachmentFields file) := by
  obtain ⟨front, line, mark, isMark, isLines⟩ := exists_lines_attachmentHead file
  have visible : mark ≠ '\r' ∧ mark ≠ '\n' := by
    rcases isMark with rfl | rfl <;> decide
  have noFeed : ∀ line ∈ Text.lines (attachmentHead file), '\n' ∉ line := fun _ => noFeed_of_mem_lines
  have read : Text.lines (joinFeeds (Text.lines (attachmentHead file))) =
      (Text.lines (attachmentHead file)).map stripReturn := by
    rw [isLines] at noFeed ⊢
    obtain ⟨frontNoFeed, lastNoFeed⟩ := List.forall_mem_append.mp noFeed
    exact lines_joinFeeds_concat visible frontNoFeed
      fun mem => lastNoFeed _ List.mem_cons_self (List.mem_append_left _ mem)
  rw [parseHeaders, read, lines_attachmentHead_eq, List.map_flatMap, readRows]

theorem attachmentFieldNames_eq (casing : Casing) (file : TutanotaFile) :
    attachmentFieldNames file = (attachmentFields file).map fun field => casing.toLowercase field.1.toList := by
  have lower : ∀ name : String, isFieldName name = true →
      casing.toLowercase name.toList = name.toList.map Char.toLower := fun name isName =>
    casing.toLowercase_ascii _ fun char mem => (plain_of_mem_name isName mem).1
  have fixed : ["content-type".toList, "content-transfer-encoding".toList, "content-disposition".toList] =
      ["Content-Type", "Content-Transfer-Encoding", "Content-Disposition"].map fun name =>
        casing.toLowercase name.toList := by
    rw [List.map_congr_left fun name mem => lower name (by revert name; decide)]
    decide
  have id : "content-id".toList = casing.toLowercase "Content-ID".toList := by
    rw [lower "Content-ID" (by decide)]
    decide
  rw [attachmentFieldNames, fixed, id, attachmentFields, List.map_append]
  cases file.cid <;> rfl

/-- The Content-Disposition is read as it was written. -/
theorem getHeader_disposition (casing : Casing) (file : TutanotaFile)
    (opensNothing : ∀ field ∈ attachmentFields file, ∀ line ∈ (headRows field).tail, fieldName? line = none) :
    getHeader (readRows casing (attachmentFields file)) "content-disposition" =
      some (fileDisposition file) := by
  let before : List (String × Text) :=
    [("Content-Type", fileType file), ("Content-Transfer-Encoding", "base64".toList)]
  let after := (file.cid.map fun cid => ("Content-ID", '<' :: (cid.toList ++ ['>']))).toList
  have isFields : attachmentFields file =
      before ++ ("Content-Disposition", fileDisposition file) :: after := rfl
  have isName : "Content-Disposition".toList.map Char.toLower = "content-disposition".toList := by decide
  have isFirst : Lacks before "content-disposition" := by
    have others : ∀ name ∈ ["Content-Type", "Content-Transfer-Encoding"],
        name.toList.map Char.toLower ≠ "content-disposition".toList := by decide
    refine List.forall_mem_cons.mpr ⟨others _ (by simp), List.forall_mem_singleton.mpr (others _ (by simp))⟩
  have named := isFieldName_attachmentFields file
  rw [isFields] at named opensNothing ⊢
  rw [getHeader_readRows casing named opensNothing (unbroken_fileDisposition file) isName isFirst,
    trim_fileDisposition]

/-- The lines of an attachment's part, as they are cut out of the message. -/
theorem exists_feedLines_attachmentLines (attachment : TutanotaFile × List UInt8) :
    ∃ front mark, (mark = '"' ∨ mark = '>') ∧
      joinFeeds (Text.lines (attachmentHead attachment.1)) = front ++ [mark] ∧
      feedLines (attachmentLines attachment) =
        front ++ mark :: '\n' :: '\n' :: feedLines (bodyRows attachment.2) := by
  obtain ⟨front, line, mark, isMark, isLines⟩ := exists_lines_attachmentHead attachment.1
  refine ⟨feedLines front ++ line, mark, isMark, ?_, ?_⟩
  · rw [isLines, joinFeeds_concat, List.append_assoc]
  · rw [attachmentLines, isLines, feedLines_append, feedLines_append, feedLines_cons, feedLines_cons]
    simp [feedLines]

/-- An attachment's part is read as it is meant exactly where the file is sound. -/
theorem isAttachmentPart_iff (casing : Casing) (attachment : TutanotaFile × List UInt8) :
    IsAttachmentPart casing attachment (feedLines (attachmentLines attachment)) ↔ SoundFile casing attachment.1 := by
  obtain ⟨front, mark, isMark, isHead, isText⟩ := exists_feedLines_attachmentLines attachment
  have visible : mark ≠ '\r' ∧ mark ≠ '\n' := by
    rcases isMark with rfl | rfl <;> decide
  have noReturn : '\r' ∉ feedLines (bodyRows attachment.2) :=
    not_mem_feedLines (unbroken_bodyRows attachment.2)
  have sameEnds : ∀ ending ∈ headEnds,
      contains (joinFeeds (Text.lines (attachmentHead attachment.1))) ending = contains front ending := by
    intro ending isEnding
    have notMark : mark ∉ ending ∧ ending ≠ [] := by
      simp only [headEnds, List.mem_cons, List.not_mem_nil, or_false] at isEnding
      rcases isMark with rfl | rfl <;> rcases isEnding with rfl | rfl <;> decide
    rw [isHead, Bool.eq_iff_iff, contains_iff, contains_iff, infix_append_cons_iff notMark.1]
    simp [notMark.2]
  have cut : (∀ ending ∈ headEnds,
      contains (joinFeeds (Text.lines (attachmentHead attachment.1))) ending = false) →
      splitHeadersBody (feedLines (attachmentLines attachment)) =
        (joinFeeds (Text.lines (attachmentHead attachment.1)), feedLines (bodyRows attachment.2)) := by
    intro oneHead
    rw [isText, isHead]
    exact splitHeadersBody_concat visible noReturn fun ending isEnding =>
      (sameEnds ending isEnding).symm.trans (oneHead ending isEnding)
  have named := isFieldName_attachmentFields attachment.1
  have fields := names_readRows_iff casing named
  have filename := @filename_read_iff casing attachment.1
  constructor
  · intro isPart
    have oneHead : ∀ ending ∈ headEnds,
        contains (joinFeeds (Text.lines (attachmentHead attachment.1))) ending = false := by
      intro ending isEnding
      rw [sameEnds ending isEnding, ← Bool.not_eq_true]
      intro early
      have inBody := @mem_splitHeadersBody front mark ending ('\n' :: '\n' :: feedLines (bodyRows attachment.2))
        isEnding early (by simpa using noReturn) visible
      have noDigit : mark ∉ Base64.standard ∧ mark ≠ '=' ∧ isWhitespace mark = false := by
        rcases isMark with rfl | rfl <;> decide
      have data := isPart.data
      rw [isText, decodeBase64Lines, Base64.decodePadded_eq_none
        (List.mem_filter.mpr ⟨inBody, by simp [noDigit.2.2]⟩) noDigit.1 noDigit.2.1] at data
      cases data
    have isFields := isPart.fields
    have isName := isPart.filename
    rw [cut oneHead, parseHeaders_attachmentHead] at isFields isName
    have opensNothing := fields.mp (isFields.trans (attachmentFieldNames_eq casing attachment.1))
    rw [getHeader_disposition casing attachment.1 opensNothing, Option.getD_some, filename] at isName
    exact ⟨isName.1, isName.2, oneHead, opensNothing⟩
  · intro sound
    have split := cut sound.oneHead
    refine ⟨?_, ?_, ?_⟩
    · rw [split, parseHeaders_attachmentHead, attachmentFieldNames_eq casing]
      exact fields.mpr sound.opensNothing
    · rw [split, parseHeaders_attachmentHead, getHeader_disposition casing _ sound.opensNothing,
        Option.getD_some]
      exact filename.mpr ⟨sound.hasName, sound.plainName⟩
    · rw [split]
      exact decodeBase64Lines_bodyRows attachment.2

end Reading

/-! ## Lines that are taken for delimiters -/

section Delimiters

variable {boundary : Text}

/-- Lines that do not close the message are cut into parts, and into more than the one that is
being read where one of them is a delimiter. -/
theorem exists_mimePartsFrom_append {lines : List Text}
    (keepsOpen : ∀ line ∈ lines, ("--".toList ++ boundary ++ "--".toList).isPrefixOf line = false)
    (lastClear : ∀ line ∈ lines.getLast?, ("--".toList ++ boundary).isPrefixOf line = false)
    {current : Text} (started : current ≠ [] ∨ lines ≠ []) (behind : List Text) :
    ∃ parts rest, rest ≠ [] ∧ mimePartsFrom boundary true current (lines ++ behind) =
        parts ++ mimePartsFrom boundary true rest behind ∧
      (current ≠ [] → (∃ line ∈ lines, ("--".toList ++ boundary).isPrefixOf line = true) → parts ≠ []) := by
  induction lines generalizing current with
  | nil =>
    refine ⟨[], current, started.resolve_right fun notEmpty => notEmpty rfl, rfl, fun _ delimits => ?_⟩
    obtain ⟨line, mem, -⟩ := delimits
    cases mem
  | cons line later ih =>
    obtain ⟨first, keepsOpen⟩ := List.forall_mem_cons.mp keepsOpen
    have laterClear : ∀ line ∈ later.getLast?, ("--".toList ++ boundary).isPrefixOf line = false := by
      cases later with
      | nil => rintro line ⟨⟩
      | cons next rest => rwa [List.getLast?_cons_cons] at lastClear
    by_cases isDelimiter : ("--".toList ++ boundary).isPrefixOf line = true
    · have goesOn : later ≠ [] := by
        rintro rfl
        exact absurd ((lastClear line rfl).symm.trans isDelimiter) (by decide)
      obtain ⟨parts, rest, notEmpty, isCut, -⟩ :=
        @ih keepsOpen laterClear [] (.inr goesOn)
      refine ⟨finishPart true current ++ parts, rest, notEmpty, ?_, fun isStarted _ => ?_⟩
      · rw [List.cons_append, mimePartsFrom, first, isDelimiter, if_neg (by decide), if_pos rfl, isCut,
          List.append_assoc]
      · simp [finishPart, isStarted]
    · rw [Bool.not_eq_true] at isDelimiter
      obtain ⟨parts, rest, notEmpty, isCut, delimits⟩ :=
        @ih keepsOpen laterClear (current ++ line ++ ['\n']) (.inl (by simp))
      refine ⟨parts, rest, notEmpty, ?_, fun _ delimited => delimits (by simp) ?_⟩
      · rw [List.cons_append, mimePartsFrom, first, isDelimiter, if_neg (by decide), if_neg (by decide),
          if_pos rfl, isCut]
      · obtain ⟨other, mem, isOther⟩ := delimited
        rcases List.mem_cons.mp mem with rfl | inLater
        · exact absurd (isDelimiter.symm.trans isOther) (by decide)
        · exact ⟨other, inLater, isOther⟩

/-- A section that begins and ends with lines of its own. -/
structure IsSection (boundary : Text) (lines : List Text) : Prop where
  notEmpty : lines ≠ []
  firstClear : ∀ line ∈ lines.head?, ("--".toList ++ boundary).isPrefixOf line = false
  lastClear : ∀ line ∈ lines.getLast?, ("--".toList ++ boundary).isPrefixOf line = false
  keepsOpen : ∀ line ∈ lines, ("--".toList ++ boundary ++ "--".toList).isPrefixOf line = false

/-- There is a part for every section, and more where a line of one is taken for a delimiter. -/
theorem length_mimePartsFrom_delimitedLines {sections : List (List Text)}
    (areSections : ∀ lines ∈ sections, IsSection boundary lines) (inPart : Bool) (current : Text) :
    (finishPart inPart current).length + sections.length ≤
        (mimePartsFrom boundary inPart current (delimitedLines boundary sections)).length ∧
      ((∃ lines ∈ sections, ∃ line ∈ lines, ("--".toList ++ boundary).isPrefixOf line = true) →
        (finishPart inPart current).length + sections.length <
          (mimePartsFrom boundary inPart current (delimitedLines boundary sections)).length) := by
  obtain ⟨notEnd, isDelimiter⟩ := @isPrefixOf_delimiter_self boundary
  induction sections generalizing inPart current with
  | nil =>
    have clear := mimePartsFrom_delimitedLines (List.forall_mem_nil fun lines : List Text =>
      ∀ line ∈ lines, ("--".toList ++ boundary).isPrefixOf line = false) inPart current []
    rw [List.flatMap_nil, List.append_nil, List.append_nil] at clear
    rw [clear]
    exact ⟨Nat.le_refl _, fun ⟨lines, mem, _⟩ => absurd mem List.not_mem_nil⟩
  | cons lines rest ih =>
    obtain ⟨first, others⟩ := List.forall_mem_cons.mp areSections
    obtain ⟨line, later, rfl⟩ := List.exists_cons_of_ne_nil first.notEmpty
    have firstClear := first.firstClear line rfl
    obtain ⟨firstOpen, laterOpen⟩ := List.forall_mem_cons.mp first.keepsOpen
    have laterClear : ∀ line ∈ later.getLast?, ("--".toList ++ boundary).isPrefixOf line = false := by
      have lastClear := first.lastClear
      cases later with
      | nil => rintro line ⟨⟩
      | cons next rest => rwa [List.getLast?_cons_cons] at lastClear
    obtain ⟨parts, done, notEmpty, isCut, delimits⟩ := @exists_mimePartsFrom_append boundary later laterOpen
      laterClear (line ++ ['\n']) (.inl (by simp)) (delimitedLines boundary rest)
    obtain ⟨atLeast, more⟩ := ih others true done
    have finished : (finishPart true done).length = 1 := by simp [finishPart, notEmpty]
    have whole : mimePartsFrom boundary inPart current (delimitedLines boundary ((line :: later) :: rest)) =
        finishPart inPart current ++ (parts ++ mimePartsFrom boundary true done (delimitedLines boundary rest)) := by
      have isLines : delimitedLines boundary ((line :: later) :: rest) =
          ("--".toList ++ boundary) :: line :: (later ++ delimitedLines boundary rest) := by
        simp [delimitedLines]
      rw [isLines, mimePartsFrom, notEnd, isDelimiter, if_neg (by decide), if_pos rfl, mimePartsFrom,
        firstOpen, firstClear, if_neg (by decide), if_neg (by decide), if_pos rfl, List.nil_append, isCut]
    rw [whole, List.length_append, List.length_append, List.length_cons]
    refine ⟨by omega, fun delimited => ?_⟩
    obtain ⟨other, isSection, taken, inSection, isTaken⟩ := delimited
    rcases List.mem_cons.mp isSection with rfl | inRest
    · have inLater : taken ∈ later := (List.mem_cons.mp inSection).resolve_left
        fun same => absurd (firstClear.symm.trans (same ▸ isTaken)) (by decide)
      have positive := List.length_pos_iff.mpr (delimits (by simp) ⟨taken, inLater, isTaken⟩)
      omega
    · have moreLater := more ⟨other, inRest, taken, inSection, isTaken⟩
      omega

end Delimiters

/-! ## The parts of a message -/

section Parts

variable {casing : Casing} {mail : Mail} {details : Option MailDetails}
  {attachments : List (TutanotaFile × List UInt8)}

/-- The section of an attachment keeps the message open where its head does. -/
theorem isSection_attachmentLines {attachment : TutanotaFile × List UInt8} (keepsOpen : KeepsOpen mail attachment.1) :
    IsSection (buildBoundary mail) (attachmentLines attachment) := by
  have rows : ∀ row ∈ [] :: bodyRows attachment.2,
      ("--".toList ++ buildBoundary mail).isPrefixOf row = false :=
    List.forall_mem_cons.mpr ⟨isPrefixOf_line (by decide), fun row mem =>
      isPrefixOf_line (solid_bodyRows attachment.2 row mem).2⟩
  refine ⟨by simp [attachmentLines], ?_, ?_, ?_⟩
  · obtain ⟨row, later, isRows⟩ := @exists_headRows ("Content-Type", fileType attachment.1)
      (isFieldName_attachmentFields attachment.1 _ (type_mem_attachmentFields attachment.1))
    have isFirst : (attachmentLines attachment).head? = some (headerLine "Content-Type" row) := by
      rw [attachmentLines, lines_attachmentHead_eq, attachmentFields, List.cons_append, List.flatMap_cons,
        isRows]
      rfl
    rw [isFirst]
    rintro line ⟨⟩
    exact isPrefixOf_line (by simp [headerLine])
  · rw [attachmentLines, List.getLast?_append]
    intro line isLast
    refine rows line ?_
    cases found : ([] :: bodyRows attachment.2).getLast? with
    | none => exact absurd (List.getLast?_eq_none_iff.mp found) (List.cons_ne_nil _ _)
    | some last =>
      rw [found, Option.some_or] at isLast
      cases isLast
      exact List.mem_of_getLast? found
  · exact List.forall_mem_append.mpr ⟨keepsOpen, fun row mem => isPrefixOf_end (rows row mem)⟩

theorem isSection_alternativePart (mail : Mail) (html : Text) :
    IsSection (buildBoundary mail) (alternativePart mail html) := by
  have clear := isPrefixOf_alternativePart mail html
  refine ⟨by simp [alternativePart], fun line isFirst => clear line (List.mem_of_head? isFirst),
    fun line isLast => clear line (List.mem_of_getLast? isLast), fun line mem =>
      isPrefixOf_end (clear line mem)⟩

/-- The part of the texts is read as it is meant. -/
theorem isAlternativePart_feedLines (ids : HasTutaIds mail) (html : Text) :
    IsAlternativePart casing mail (feedLines (alternativePart mail html)) := by
  have unbroken := unbroken_alternativeLines (unbroken_boundaries ids).2 (htmlToText html) html
  have solid := solid_field (alternativeHead ids)
  have isPart : alternativePart mail html = fieldLines [(alternativeHead ids).field] ++
      [] :: alternativeLines (buildAltBoundary mail) (htmlToText html) html := rfl
  rw [IsAlternativePart, isPart, splitHeadersBody_feedLines (List.cons_ne_nil _ _) solid unbroken,
    parseHeaders_joinFeeds casing solid, getHeader_field]
  rfl

/-- A message without attachments is the part of its texts. -/
theorem isAlternativePart_message (ids : HasTutaIds mail) :
    IsAlternativePart casing mail (mailToRfc2822 mail details []) := by
  obtain ⟨isRead, isSection, -, -, isSplit⟩ := mailToRfc2822_headers casing ids details []
  have isType := getHeader_messageFields mail details []
  rw [messageType, if_pos rfl] at isType
  rw [IsAlternativePart, isSplit, ← isSection, isRead, isType]
  exact congrArg some (trim_multipartType (alternativeHead ids))

theorem outerParts_eq (ids : HasTutaIds mail) (hasAttachments : attachments ≠ []) :
    outerParts mail details attachments =
      splitMimeParts (messageBody mail details attachments) (buildBoundary mail) := by
  obtain ⟨-, -, -, -, isSplit⟩ := mailToRfc2822_headers .ascii ids details attachments
  rw [outerParts, if_neg hasAttachments, isSplit]

/-- Where no head is taken for a delimiter, the parts are what is meant exactly for sound files. -/
theorem partsHold_iff_sound (ids : HasTutaIds mail)
    (keeps : ∀ attachment ∈ attachments, KeepsDelimiters mail attachment.1) :
    PartsHold casing mail details attachments ↔ ∀ attachment ∈ attachments, SoundFile casing attachment.1 := by
  have isAlternative := @isAlternativePart_feedLines casing mail ids (bodyText details)
  have each : List.Forall₂ (IsAttachmentPart casing) attachments
      ((attachments.map attachmentLines).map feedLines) ↔
        ∀ attachment ∈ attachments, SoundFile casing attachment.1 := by
    rw [List.map_map, List.forall₂_map_right_iff, List.forall₂_same]
    exact forall₂_congr fun attachment _ => isAttachmentPart_iff casing attachment
  by_cases noAttachments : attachments = []
  · subst noAttachments
    refine iff_of_true ⟨_, [], rfl, isAlternativePart_message ids, List.Forall₂.nil⟩ (List.forall_mem_nil _)
  · have isCut := @splitMimeParts_messageBody mail details attachments ids noAttachments keeps
    rw [← each, PartsHold, outerParts_eq ids noAttachments, isCut, mailSections, List.map_cons]
    constructor
    · rintro ⟨alternative, parts, same, -, hold⟩
      rwa [← (List.cons.inj same).2] at hold
    · exact fun hold => ⟨_, _, rfl, isAlternative, hold⟩

/-- Where no head closes the message, the parts are too many if a head is taken for a delimiter. -/
theorem keepsDelimiters_of_partsHold (ids : HasTutaIds mail)
    (keepsOpen : ∀ attachment ∈ attachments, KeepsOpen mail attachment.1)
    (hold : PartsHold casing mail details attachments) :
    ∀ attachment ∈ attachments, KeepsDelimiters mail attachment.1 := by
  by_cases noAttachments : attachments = []
  · subst noAttachments
    exact List.forall_mem_nil _
  obtain ⟨alternative, parts, isCut, -, each⟩ := hold
  have areSections : ∀ lines ∈ mailSections mail (bodyText details) attachments,
      IsSection (buildBoundary mail) lines := by
    refine List.forall_mem_cons.mpr ⟨isSection_alternativePart mail _, fun lines mem => ?_⟩
    obtain ⟨attachment, inList, rfl⟩ := List.mem_map.mp mem
    exact isSection_attachmentLines (keepsOpen attachment inList)
  have preamble : ("--".toList ++ buildBoundary mail).isPrefixOf
      "This is a multi-part message in MIME format.".toList = false := isPrefixOf_line (by decide)
  obtain ⟨-, more⟩ := length_mimePartsFrom_delimitedLines areSections false []
  rw [outerParts_eq ids noAttachments, splitMimeParts, lines_messageBody ids noAttachments, mimePartsFrom,
    isPrefixOf_end preamble, preamble, if_neg (by decide), if_neg (by decide), if_neg (by decide)] at isCut
  rw [isCut] at more
  intro attachment mem line inHead
  rw [← Bool.not_eq_true]
  intro isTaken
  have tooMany := more ⟨attachmentLines attachment, List.mem_cons_of_mem _ (List.mem_map_of_mem mem), line,
    List.mem_append_left _ inHead, isTaken⟩
  have count := each.length_eq
  simp only [finishPart, mailSections, Bool.false_and, Bool.false_eq_true, if_false, List.length_nil,
    List.length_cons, List.length_map] at tooMany
  omega

/-- The parts of a message are what is meant where every file is sound and no line of a head is
taken for a delimiter, and unless a head closes the message, only there. -/
theorem partsHold_iff (casing : Casing) (ids : HasTutaIds mail) (details : Option MailDetails)
    (attachments : List (TutanotaFile × List UInt8)) :
    ((∀ attachment ∈ attachments, KeepsDelimiters mail attachment.1 ∧ SoundFile casing attachment.1) →
        PartsHold casing mail details attachments) ∧
      ((∀ attachment ∈ attachments, KeepsOpen mail attachment.1) → PartsHold casing mail details attachments →
          ∀ attachment ∈ attachments, KeepsDelimiters mail attachment.1 ∧ SoundFile casing attachment.1) := by
  constructor
  · intro sound
    exact (partsHold_iff_sound ids fun attachment mem => (sound attachment mem).1).mpr
      fun attachment mem => (sound attachment mem).2
  · intro keepsOpen hold
    have keeps := keepsDelimiters_of_partsHold ids keepsOpen hold
    have sound := (partsHold_iff_sound ids keeps).mp hold
    exact fun attachment mem => ⟨keeps attachment mem, sound attachment mem⟩

end Parts

/-! ## A head with a line of its own -/

/-- A mail with an attachment. -/
def attachedMail : Mail where
  id := some ⟨"list", "mail"⟩
  subject := "Report"
  sender := ⟨"Jane", "jane@example.org"⟩
  receivedDate := 1709210096000
  unread := true
  attachments := []

theorem hasTutaIds_attachedMail : HasTutaIds attachedMail := by
  rintro id ⟨⟩
  decide

/-- A PDF with a name that is not ASCII and has a quote in it. -/
def quotedFile : TutanotaFile where
  name := "É\"1\".pdf"
  mimeType := some "application/pdf"
  cid := some "chart@tuta"

theorem partsHold_quoted_name :
    PartsHold .ascii attachedMail none [(quotedFile, [37, 80, 68, 70]), (quotedFile, [])] := by
  have keeps : KeepsDelimiters attachedMail quotedFile := by
    unfold KeepsDelimiters
    decide
  have sound : SoundFile .ascii quotedFile := by
    refine ⟨by decide, fun ascii => absurd ascii (by decide), by decide, by decide⟩
  refine (partsHold_iff .ascii hasTutaIds_attachedMail none _).1 fun attachment mem => ?_
  simp only [List.mem_cons, List.not_mem_nil, or_false] at mem
  rcases mem with rfl | rfl <;> exact ⟨keeps, sound⟩

/-- A text with a type that has a line of its own. -/
def forgedFile : TutanotaFile where
  name := "a.txt"
  mimeType := some "text/plain\r\nX-Forged: yes"
  cid := none

/-- The line of the type is a field of the part. -/
theorem forged_type_opens_field :
    HasTutaIds attachedMail ∧ ¬ PartsHold .ascii attachedMail none [(forgedFile, [])] := by
  refine ⟨hasTutaIds_attachedMail, fun hold => ?_⟩
  have keeps : KeepsDelimiters attachedMail forgedFile := by
    unfold KeepsDelimiters
    decide
  have keepsAll : ∀ attachment ∈ [(forgedFile, ([] : List UInt8))],
      KeepsDelimiters attachedMail attachment.1 := by
    intro attachment mem
    rw [List.mem_singleton.mp mem]
    exact keeps
  have sound : SoundFile .ascii forgedFile :=
    (partsHold_iff_sound hasTutaIds_attachedMail keepsAll).mp hold (forgedFile, []) List.mem_cons_self
  have opens : ¬ ∀ line ∈ (headRows ("Content-Type", fileType forgedFile)).tail, fieldName? line = none := by
    decide
  have nothing := sound.opensNothing ("Content-Type", fileType forgedFile)
    (type_mem_attachmentFields forgedFile)
  exact opens nothing

end TutaBridge.Mail
