import TutaBridge.Mail.MimeTrees

/-!
# The parts of a mail's message

A message that `mail_to_rfc2822` writes is cut into its parts at its boundary again: first the
two texts of the mail, then a part for every attachment. What a sender wrote into the type, the
name or the content id of a file stands in the head of that file's part. As long as no line of
it is taken for a delimiter, the parts are cut where they were written.
-/

namespace TutaBridge.Mail

open TutaBridge.Std TutaBridge.Std.Text Tuta

variable (data : List UInt8)

/-! ## Lines -/

/-- Lines are read one after the other. -/
theorem lines_append_feed (first rest : Text) :
    Text.lines (first ++ '\n' :: rest) = Text.lines (first ++ ['\n']) ++ Text.lines rest := by
  have reads : ∀ current : Text, linesFrom current (first ++ '\n' :: rest) =
      linesFrom current (first ++ ['\n']) ++ Text.lines rest := by
    induction first with
    | nil =>
      intro current
      simp [linesFrom, Text.lines]
    | cons head later ih =>
      intro current
      rw [List.cons_append, List.cons_append, linesFrom, linesFrom]
      split
      · rw [ih, List.cons_append]
      · exact ih _
  exact reads []

theorem lines_append_newline (first rest : Text) :
    Text.lines (first ++ newline ++ rest) = Text.lines (first ++ newline) ++ Text.lines rest := by
  have read := lines_append_feed (first ++ ['\r']) rest
  simpa [newline] using read

/-- Unbroken lines are read as they were written. -/
theorem lines_flatMap_append {lines : List Text} (unbroken : ∀ line ∈ lines, Unbroken line) (rest : Text) :
    Text.lines (lines.flatMap (fun line => line ++ newline) ++ rest) = lines ++ Text.lines rest := by
  induction lines with
  | nil => rfl
  | cons line later ih =>
    obtain ⟨first, unbroken⟩ := List.forall_mem_cons.mp unbroken
    have read := lines_line_crlf first (later.flatMap (fun line => line ++ newline) ++ rest)
    rw [ih unbroken] at read
    rw [List.flatMap_cons]
    simpa [newline] using read

/-- An unbroken text begins the first line of a text that begins with it. -/
theorem exists_lines_append {first : Text} (notEmpty : first ≠ []) (unbroken : Unbroken first)
    (text : Text) : ∃ line later, Text.lines (first ++ text) = (first ++ line) :: later := by
  have reads : ∀ current text : Text, ∃ line later,
      linesFrom (first ++ current) text = (first ++ line) :: later := by
    intro current text
    induction text generalizing current with
    | nil => exact ⟨current, [], by simp [linesFrom, notEmpty]⟩
    | cons next rest ih =>
      rw [linesFrom]
      split
      · have kept : ∃ line, stripReturn (first ++ current) = first ++ line := by
          by_cases isEmpty : current = []
          · subst isEmpty
            exact ⟨[], by rw [List.append_nil, unbroken.stripReturn]⟩
          · unfold stripReturn
            split
            · exact ⟨_, List.dropLast_append_of_ne_nil isEmpty⟩
            · exact ⟨current, rfl⟩
        obtain ⟨line, isLine⟩ := kept
        exact ⟨line, _, by rw [isLine]⟩
      · obtain ⟨line, later, isLines⟩ := ih (current ++ [next])
        exact ⟨line, later, by rw [List.append_assoc, isLines]⟩
  have whole := reads [] text
  rw [List.append_nil] at whole
  rw [Text.lines, linesFrom_append [] unbroken.2, List.nil_append]
  exact whole

/-! ## Sections between delimiters -/

/-- The lines of sections, each behind a delimiter, and the closing delimiter. -/
def delimitedLines (boundary : Text) (sections : List (List Text)) : List Text :=
  sections.flatMap (fun lines => ("--".toList ++ boundary) :: lines) ++
    ["--".toList ++ boundary ++ "--".toList]

/-- Sections without a delimiter in them are the parts. -/
theorem mimePartsFrom_delimitedLines {boundary : Text} {sections : List (List Text)}
    (clear : ∀ lines ∈ sections, ∀ line ∈ lines, ("--".toList ++ boundary).isPrefixOf line = false)
    (inPart : Bool) (current : Text) (behind : List Text) :
    mimePartsFrom boundary inPart current (delimitedLines boundary sections ++ behind) =
      finishPart inPart current ++ sections.flatMap fun lines => finishPart true (feedLines lines) := by
  obtain ⟨notEnd, isDelimiter⟩ := @isPrefixOf_delimiter_self boundary
  induction sections generalizing inPart current with
  | nil =>
    have isEnd : ("--".toList ++ boundary ++ "--".toList).isPrefixOf
        ("--".toList ++ boundary ++ "--".toList) = true :=
      List.isPrefixOf_iff_prefix.mpr (List.prefix_refl _)
    rw [delimitedLines, List.flatMap_nil, List.nil_append, List.cons_append, mimePartsFrom, isEnd,
      if_pos rfl, List.flatMap_nil, List.append_nil]
  | cons lines rest ih =>
    obtain ⟨first, clear⟩ := List.forall_mem_cons.mp clear
    have isLines : delimitedLines boundary (lines :: rest) ++ behind =
        ("--".toList ++ boundary) :: (lines ++ (delimitedLines boundary rest ++ behind)) := by
      simp [delimitedLines]
    rw [isLines, mimePartsFrom, notEnd, isDelimiter, if_neg (by decide), if_pos rfl,
      mimePartsFrom_append first, ih clear, List.nil_append, List.flatMap_cons]

/-! ## What is written -/

/-- The rows between the blank line of a base64 part and the line break before the next
delimiter. -/
def bodyRows (data : List UInt8) : List Text :=
  let rows := chunks 76 (Base64.encodePadded Base64.standard data).toList
  if rows = [] then [[]] else rows

theorem bodyRows_ne_nil : bodyRows data ≠ [] := by
  unfold bodyRows
  dsimp only
  split
  · exact List.cons_ne_nil _ _
  · assumption

theorem joinLines_bodyRows : joinLines (bodyRows data) = base64EncodeBody data := by
  unfold bodyRows base64EncodeBody
  dsimp only
  split
  next isEmpty =>
    rw [isEmpty]
    rfl
  next => rfl

theorem base64EncodeBody_newline :
    base64EncodeBody data ++ newline = (bodyRows data).flatMap fun row => row ++ newline := by
  rw [flatMap_append_eq_intercalate (bodyRows_ne_nil data), ← joinLines_bodyRows]
  rfl

theorem solid_bodyRows : ∀ row ∈ bodyRows data, Unbroken row ∧ row.head? ≠ some '-' := by
  unfold bodyRows
  dsimp only
  split
  · exact List.forall_mem_singleton.mpr ⟨Unbroken.nil, by decide⟩
  · exact solid_chunks data

theorem decodeBase64Lines_bodyRows : decodeBase64Lines (feedLines (bodyRows data)) = some data := by
  have read := decodeBase64Lines_chunks data
  unfold bodyRows
  dsimp only
  split
  next isEmpty =>
    rw [isEmpty] at read
    have dropped : decodeBase64Lines (feedLines [[]]) = decodeBase64Lines (feedLines []) := by decide
    exact dropped.trans read
  next => exact read

/-- The fields of a text part. -/
def textFields (subtype : String) : List (String × Text) :=
  [("Content-Type", "text/".toList ++ subtype.toList ++ "; charset=UTF-8".toList),
    ("Content-Transfer-Encoding", "base64".toList)]

def textLines (subtype : String) (data : List UInt8) : List Text :=
  fieldLines (textFields subtype) ++ [] :: bodyRows data

/-- The lines of the two texts of a mail. -/
def alternativeLines (boundary plain html : Text) : List Text :=
  delimitedLines boundary [textLines "plain" (Utf8.encode plain), textLines "html" (Utf8.encode html)]

theorem alternativeParts_eq (boundary plain html : Text) : alternativeParts boundary plain html =
      (alternativeLines boundary plain html).flatMap fun line => line ++ newline := by
  have plainRows := base64EncodeBody_newline (Utf8.encode plain)
  have htmlRows := base64EncodeBody_newline (Utf8.encode html)
  unfold alternativeParts alternativeLines delimitedLines textLines textFields textPartHeaders fieldLines
  simp only [List.flatMap_append, List.flatMap_cons, List.flatMap_nil, List.map_cons, List.map_nil,
    List.append_assoc, List.cons_append, List.nil_append, List.append_nil, ← plainRows, ← htmlRows]

/-- The type a file is sent with. -/
def mimeOf (file : TutanotaFile) : Text :=
  (file.mimeType.map String.toList).getD "application/octet-stream".toList

/-- The Content-Type of a file's part. -/
def fileType (file : TutanotaFile) : Text :=
  mimeOf file ++ "; name=\"".toList ++ encodeHeaderValue file.name.toList ++ ['"']

/-- The Content-Disposition of a file's part. -/
def fileDisposition (file : TutanotaFile) : Text :=
  "attachment; filename=\"".toList ++ encodeHeaderValue file.name.toList ++ ['"']

/-- The fields of an attachment's part. -/
def attachmentFields (file : TutanotaFile) : List (String × Text) :=
  [("Content-Type", fileType file), ("Content-Transfer-Encoding", "base64".toList),
    ("Content-Disposition", fileDisposition file)] ++
    (file.cid.map fun cid => ("Content-ID", '<' :: (cid.toList ++ ['>']))).toList

/-- The head of an attachment's part, as it is written. -/
def attachmentHead (file : TutanotaFile) : Text :=
  (fieldLines (attachmentFields file)).flatMap fun line => line ++ newline

/-- The lines between an attachment's delimiter and the next. -/
def attachmentLines (attachment : TutanotaFile × List UInt8) : List Text :=
  Text.lines (attachmentHead attachment.1) ++ [] :: bodyRows attachment.2

theorem attachmentPart_eq (boundary : Text) (file : TutanotaFile) (data : List UInt8) :
    attachmentPart boundary file data =
      "--".toList ++ boundary ++ newline ++
        (attachmentHead file ++ ([] :: bodyRows data).flatMap fun row => row ++ newline) := by
  have rows := base64EncodeBody_newline data
  unfold attachmentPart attachmentHead attachmentFields fieldLines fileType fileDisposition mimeOf
  cases file.cid <;>
    simp only [List.flatMap_cons, List.flatMap_nil, List.map_cons, List.map_nil, Option.map_some,
      Option.map_none, Option.toList_some, Option.toList_none,
      List.append_assoc, List.cons_append, List.nil_append, List.append_nil, ← rows]

/-- The lines of the alternative part of a message with attachments. -/
def alternativePart (mail : Mail) (html : Text) : List Text :=
  fieldLines [("Content-Type", multipartType "alternative" (buildAltBoundary mail))] ++
    [] :: alternativeLines (buildAltBoundary mail) (htmlToText html) html

theorem pushAlternativeBody_eq (mail : Mail) (html : Text) :
    pushAlternativeBody (buildAltBoundary mail) (htmlToText html) html =
      (alternativePart mail html).flatMap fun line => line ++ newline := by
  rw [pushAlternativeBody, alternativeParts_eq, alternativePart]
  simp [fieldLines]

/-- The lines between the delimiters of a message with attachments. -/
def mailSections (mail : Mail) (html : Text) (attachments : List (TutanotaFile × List UInt8)) :
    List (List Text) :=
  alternativePart mail html :: attachments.map attachmentLines

/-- No line of the head of a file's part is taken for a delimiter. -/
def KeepsDelimiters (mail : Mail) (file : TutanotaFile) : Prop :=
  ∀ line ∈ Text.lines (attachmentHead file), ("--".toList ++ buildBoundary mail).isPrefixOf line = false

section Cut

variable {mail : Mail} {details : Option MailDetails}
  {attachments : List (TutanotaFile × List UInt8)}

theorem unbroken_boundaries (ids : HasTutaIds mail) :
    Unbroken (buildBoundary mail) ∧ Unbroken (buildAltBoundary mail) := by
  unfold buildBoundary buildAltBoundary
  cases known : mail.id with
  | none => decide
  | some id =>
    obtain ⟨list, element⟩ := ids id known
    simp [unbroken_tutaId list, unbroken_tutaId element]

/-- The delimiters of the texts are none of the attachments'. -/
theorem isPrefixOf_altDelimiter (mail : Mail) (tail : Text) :
    ("--".toList ++ buildBoundary mail).isPrefixOf ("--".toList ++ buildAltBoundary mail ++ tail) =
      false := by
  unfold buildBoundary buildAltBoundary
  cases mail.id <;> rfl

theorem solid_textFields {subtype : String} (plain : Unbroken subtype.toList) :
    ∀ field ∈ textFields subtype, isFieldName field.1 = true ∧ Unbroken field.2 := by
  intro field mem
  simp only [textFields, List.mem_cons, List.not_mem_nil, or_false] at mem
  rcases mem with rfl | rfl
  · exact ⟨(by decide : isFieldName "Content-Type" = true), by simp [plain]⟩
  · exact ⟨(by decide : isFieldName "Content-Transfer-Encoding" = true), by decide⟩

theorem unbroken_textLines {subtype : String} (plain : Unbroken subtype.toList) (data : List UInt8) :
    ∀ line ∈ textLines subtype data, Unbroken line :=
  List.forall_mem_append.mpr ⟨fun line mem => (solid_fieldLines (solid_textFields plain) line mem).2,
      List.forall_mem_cons.mpr ⟨Unbroken.nil, fun row mem => (solid_bodyRows data row mem).1⟩⟩

theorem head?_textLines (subtype : String) (data : List UInt8) :
    ∀ line ∈ textLines subtype data, line.head? ≠ some '-' := by
  refine List.forall_mem_append.mpr ⟨?_, List.forall_mem_cons.mpr
    ⟨by decide, fun row mem => (solid_bodyRows data row mem).2⟩⟩
  intro line mem
  simp only [fieldLines, textFields, List.map_cons, List.map_nil, List.mem_cons, List.not_mem_nil,
    or_false] at mem
  rcases mem with rfl | rfl <;> simp [headerLine]

theorem unbroken_alternativeLines {boundary : Text} (unbroken : Unbroken boundary)
    (plain html : Text) : ∀ line ∈ alternativeLines boundary plain html, Unbroken line := by
  have hyphens : Unbroken "--".toList := by decide
  have texts := @unbroken_textLines "plain" (by decide) (Utf8.encode plain)
  have htmls := @unbroken_textLines "html" (by decide) (Utf8.encode html)
  intro line mem
  simp only [alternativeLines, delimitedLines, List.flatMap_cons, List.flatMap_nil, List.mem_append,
    List.mem_cons, List.not_mem_nil, or_false] at mem
  rcases mem with ((rfl | inPlain) | rfl | inHtml) | rfl
  · exact Unbroken.append_iff.mpr ⟨hyphens, unbroken⟩
  · exact texts line inPlain
  · exact Unbroken.append_iff.mpr ⟨hyphens, unbroken⟩
  · exact htmls line inHtml
  · exact Unbroken.append_iff.mpr ⟨Unbroken.append_iff.mpr ⟨hyphens, unbroken⟩, hyphens⟩

theorem unbroken_alternativePart (ids : HasTutaIds mail) (html : Text) :
    ∀ line ∈ alternativePart mail html, Unbroken line := by
  have boundary := (unbroken_boundaries ids).2
  have isType : Unbroken (multipartType "alternative" (buildAltBoundary mail)) :=
    unbroken_multipartType (by decide) boundary
  refine List.forall_mem_append.mpr ⟨?_,
    List.forall_mem_cons.mpr ⟨Unbroken.nil, unbroken_alternativeLines boundary _ html⟩⟩
  intro line mem
  rw [fieldLines, List.map_cons, List.map_nil, List.mem_singleton] at mem
  rw [mem]
  simp [headerLine, isType]

/-- No line of the texts is taken for a delimiter of the attachments. -/
theorem isPrefixOf_alternativePart (mail : Mail) (html : Text) : ∀ line ∈ alternativePart mail html,
      ("--".toList ++ buildBoundary mail).isPrefixOf line = false := by
  have delimiter := isPrefixOf_altDelimiter mail []
  rw [List.append_nil] at delimiter
  have closing := isPrefixOf_altDelimiter mail "--".toList
  intro line mem
  rcases List.mem_append.mp mem with isField | inBody
  · rw [List.mem_singleton.mp isField]
    exact isPrefixOf_line (by simp [headerLine])
  · rcases List.mem_cons.mp inBody with rfl | inTexts
    · exact isPrefixOf_line (by decide)
    · simp only [alternativeLines, delimitedLines, List.flatMap_cons, List.flatMap_nil,
        List.mem_append, List.mem_cons, List.not_mem_nil, or_false] at inTexts
      rcases inTexts with ((rfl | inPlain) | rfl | inHtml) | rfl
      · exact delimiter
      · exact isPrefixOf_line (head?_textLines _ _ line inPlain)
      · exact delimiter
      · exact isPrefixOf_line (head?_textLines _ _ line inHtml)
      · exact closing

theorem attachmentHead_eq (file : TutanotaFile) :
    attachmentHead file = newline.intercalate (fieldLines (attachmentFields file)) ++ newline :=
  flatMap_append_eq_intercalate (by simp [fieldLines, attachmentFields]) newline

/-- The lines of an attachment's part are its delimiter and the lines behind it. -/
theorem lines_attachmentPart (ids : HasTutaIds mail) (attachment : TutanotaFile × List UInt8) (rest : Text) :
    Text.lines (attachmentPart (buildBoundary mail) attachment.1 attachment.2 ++ rest) =
      ("--".toList ++ buildBoundary mail) :: attachmentLines attachment ++ Text.lines rest := by
  have delimiter : ∀ line ∈ ["--".toList ++ buildBoundary mail], Unbroken line :=
    List.forall_mem_singleton.mpr (Unbroken.append_iff.mpr ⟨by decide, (unbroken_boundaries ids).1⟩)
  have rows : ∀ row ∈ [] :: bodyRows attachment.2, Unbroken row := List.forall_mem_cons.mpr
    ⟨Unbroken.nil, fun row mem => (solid_bodyRows attachment.2 row mem).1⟩
  have first := lines_flatMap_append delimiter (attachmentHead attachment.1 ++
    (([] :: bodyRows attachment.2).flatMap (fun row => row ++ newline) ++ rest))
  have head := lines_append_newline (newline.intercalate (fieldLines (attachmentFields attachment.1)))
    (([] :: bodyRows attachment.2).flatMap (fun row => row ++ newline) ++ rest)
  have last := lines_flatMap_append rows rest
  rw [← attachmentHead_eq, last] at head
  rw [head, List.flatMap_singleton] at first
  rw [attachmentPart_eq, attachmentLines]
  simp only [List.append_assoc, List.cons_append, List.nil_append] at first ⊢
  exact first

/-- The lines of a message with attachments. -/
theorem lines_messageBody (ids : HasTutaIds mail) (hasAttachments : attachments ≠ []) :
    Text.lines (messageBody mail details attachments) =
      "This is a multi-part message in MIME format.".toList ::
        delimitedLines (buildBoundary mail) (mailSections mail (bodyText details) attachments) := by
  have boundary : Unbroken ("--".toList ++ buildBoundary mail) :=
    Unbroken.append_iff.mpr ⟨by decide, (unbroken_boundaries ids).1⟩
  have opening : ∀ line ∈ ["This is a multi-part message in MIME format.".toList,
      "--".toList ++ buildBoundary mail] ++ alternativePart mail (bodyText details), Unbroken line :=
    List.forall_mem_append.mpr ⟨List.forall_mem_cons.mpr ⟨by decide,
      List.forall_mem_singleton.mpr boundary⟩, unbroken_alternativePart ids _⟩
  have closing : ∀ line ∈ ["--".toList ++ buildBoundary mail ++ "--".toList], Unbroken line :=
    List.forall_mem_singleton.mpr (Unbroken.append_iff.mpr ⟨boundary, by decide⟩)
  have parts : ∀ list : List (TutanotaFile × List UInt8), Text.lines (list.flatMap (fun attachment =>
          attachmentPart (buildBoundary mail) attachment.1 attachment.2) ++
        ["--".toList ++ buildBoundary mail ++ "--".toList].flatMap (fun line => line ++ newline)) =
      delimitedLines (buildBoundary mail) (list.map attachmentLines) := by
    intro list
    induction list with
    | nil =>
      have read := lines_flatMap_append closing []
      rw [List.append_nil] at read
      exact read
    | cons attachment rest ih =>
      rw [List.flatMap_cons, List.append_assoc, lines_attachmentPart ids, ih]
      simp [delimitedLines]
  have whole : messageBody mail details attachments =
      (["This is a multi-part message in MIME format.".toList, "--".toList ++ buildBoundary mail] ++
        alternativePart mail (bodyText details)).flatMap (fun line => line ++ newline) ++
      (attachments.flatMap (fun attachment =>
          attachmentPart (buildBoundary mail) attachment.1 attachment.2) ++
        ["--".toList ++ buildBoundary mail ++ "--".toList].flatMap (fun line => line ++ newline)) := by
    unfold messageBody
    dsimp only
    rw [if_neg hasAttachments, pushAlternativeBody_eq]
    simp only [List.flatMap_append, List.flatMap_cons, List.flatMap_nil, List.append_assoc, List.append_nil]
  rw [whole, lines_flatMap_append opening, parts]
  simp [delimitedLines, mailSections]

/-- The first line of an attachment's head is its Content-Type. -/
theorem exists_attachmentLines_cons (attachment : TutanotaFile × List UInt8) :
    ∃ rest, feedLines (attachmentLines attachment) = 'C' :: rest := by
  obtain ⟨behind, isHead⟩ : ∃ behind, attachmentHead attachment.1 = 'C' :: behind := by
    rw [attachmentHead, attachmentFields]
    exact ⟨_, by simp only [fieldLines, List.cons_append, List.map_cons, List.flatMap_cons]; rfl⟩
  obtain ⟨line, later, isLines⟩ := exists_lines_append (List.cons_ne_nil 'C' []) (by decide) behind
  refine ⟨line ++ '\n' :: feedLines (later ++ [] :: bodyRows attachment.2), ?_⟩
  rw [List.singleton_append] at isLines
  rw [attachmentLines, isHead, isLines, List.cons_append, feedLines_cons]
  rfl

/-- A message with attachments is cut into the part of its texts and one part for every
attachment, unless a line of a head is taken for a delimiter. -/
theorem splitMimeParts_messageBody (ids : HasTutaIds mail) (hasAttachments : attachments ≠ [])
    (keeps : ∀ attachment ∈ attachments, KeepsDelimiters mail attachment.1) :
    splitMimeParts (messageBody mail details attachments) (buildBoundary mail) =
      (mailSections mail (bodyText details) attachments).map feedLines := by
  have preamble : ("--".toList ++ buildBoundary mail).isPrefixOf
      "This is a multi-part message in MIME format.".toList = false := isPrefixOf_line (by decide)
  have clear : ∀ lines ∈ mailSections mail (bodyText details) attachments, ∀ line ∈ lines,
      ("--".toList ++ buildBoundary mail).isPrefixOf line = false := by
    refine List.forall_mem_cons.mpr ⟨isPrefixOf_alternativePart mail _, fun lines mem => ?_⟩
    obtain ⟨attachment, inList, rfl⟩ := List.mem_map.mp mem
    refine List.forall_mem_append.mpr ⟨keeps attachment inList, List.forall_mem_cons.mpr
      ⟨isPrefixOf_line (by decide), fun row isRow => ?_⟩⟩
    exact isPrefixOf_line (solid_bodyRows attachment.2 row isRow).2
  have finished : ∀ lines ∈ mailSections mail (bodyText details) attachments,
      finishPart true (feedLines lines) = [feedLines lines] := by
    refine List.forall_mem_cons.mpr ⟨finishPart_fields rfl _, fun lines mem => ?_⟩
    obtain ⟨attachment, -, rfl⟩ := List.mem_map.mp mem
    obtain ⟨rest, isText⟩ := exists_attachmentLines_cons attachment
    rw [isText, finishPart_feedLines (by decide)]
  have cut := mimePartsFrom_delimitedLines clear false [] []
  rw [List.append_nil] at cut
  rw [splitMimeParts, lines_messageBody ids hasAttachments, mimePartsFrom, isPrefixOf_end preamble,
    preamble, if_neg (by decide), if_neg (by decide), if_neg (by decide), cut,
    List.flatMap_congr finished, ← List.map_eq_flatMap]
  rfl

/-- The texts of a mail are cut apart. -/
theorem mimePartsFrom_alternativeLines (boundary plain html : Text) :
    mimePartsFrom boundary false [] (alternativeLines boundary plain html) =
      [feedLines (textLines "plain" (Utf8.encode plain)),
        feedLines (textLines "html" (Utf8.encode html))] := by
  have clear : ∀ lines ∈ [textLines "plain" (Utf8.encode plain), textLines "html" (Utf8.encode html)],
      ∀ line ∈ lines, ("--".toList ++ boundary).isPrefixOf line = false := by
    refine List.forall_mem_cons.mpr ⟨?_, List.forall_mem_singleton.mpr ?_⟩ <;>
      exact fun line mem => isPrefixOf_line (head?_textLines _ _ line mem)
  have cut := mimePartsFrom_delimitedLines clear false [] []
  rw [List.append_nil] at cut
  have plainPart := @finishPart_fields [("Content-Transfer-Encoding", "base64".toList)]
    ("Content-Type", "text/plain; charset=UTF-8".toList) rfl ([] :: bodyRows (Utf8.encode plain))
  have htmlPart := @finishPart_fields [("Content-Transfer-Encoding", "base64".toList)]
    ("Content-Type", "text/html; charset=UTF-8".toList) rfl ([] :: bodyRows (Utf8.encode html))
  rw [alternativeLines, cut, List.flatMap_cons, List.flatMap_singleton]
  exact congrArg₂ (· ++ ·) plainPart htmlPart

end Cut

end TutaBridge.Mail
