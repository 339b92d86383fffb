import TutaBridge.Mail.MimeTrees

/-!
# The files of a submitted message

A client sends its files in parts of any shape: with any headers, folded at any place, with
or without a name, below any number of parts in several parts. Whether a part is a file is
decided by words that are looked for in two of its headers, so some files are not listed.
Every entry of the list is followed back to the part it is made of, and which files are
listed is said exactly.
-/

namespace TutaBridge.Mail

open TutaBridge.Std TutaBridge.Std.Text

/-! ## Fields -/

/-- A character of a field's name. -/
def isNameChar (char : Char) : Bool := 33 ≤ char.toNat && char.toNat < 127 && char ≠ ':'

/-- A header field as it stands, on its first row and the rows it is continued in. -/
structure Field where
  name : Text
  first : Text
  rows : List Text
  hasName : name ≠ []
  isName : name.all isNameChar = true
  unbroken : ∀ row ∈ first :: rows, Unbroken row
  ascii : ∀ row ∈ first :: rows, ∀ char ∈ row, char.toNat < 128
  folded : ∀ row ∈ rows, row.head? = some ' ' ∨ row.head? = some '\t'

namespace Field

def lines (field : Field) : List Text := (field.name ++ ':' :: field.first) :: field.rows

/-- The value on one row, with one space for every fold. -/
def value (field : Field) : Text :=
  trim (field.first ++ field.rows.flatMap fun row => ' ' :: trim row)

end Field

/-- The value of the first field of a name. -/
def fieldValue (fields : List Field) (name : String) : Option Text :=
  (fields.find? fun field => field.name.map Char.toLower = name.toList).map Field.value

/-! ## Trees -/

/-- The media type of the fields is that of a part in several parts. -/
def isMultipartType (type : Text) : Bool := "multipart/".toList.isPrefixOf (type.map Char.toLower)

/-- A part that is not in several parts: any fields, and lines of any text. -/
structure BodyPart where
  fields : List Field
  body : List Text
  unbroken : ∀ line ∈ body, Unbroken line
  single : ∀ type, fieldValue fields "content-type" = some type → isMultipartType type = false

/-- The head of a part in several parts, with the lines before the first delimiter and behind
the last one. Its boundary is the value of the first `boundary=` of its Content-Type, with or
without quotes. -/
structure Container where
  before : List Field
  contentType : Field
  after : List Field
  front : Text
  key : Text
  boundary : Text
  quoted : Bool
  tail : Text
  preamble : List Text
  epilogue : List Text
  isTyped : contentType.name.map Char.toLower = "content-type".toList
  isFirstType : ∀ field ∈ before, field.name.map Char.toLower ≠ "content-type".toList
  isType : contentType.value =
    front ++ key ++ (if quoted then '"' :: (boundary ++ ['"']) else boundary) ++ tail
  isMultipart : isMultipartType front = true
  isKey : key.map Char.toLower = "boundary=".toList
  isFirstKey : before? "boundary=".toList ((front ++ key).map Char.toLower) = some (front.map Char.toLower)
  hasBoundary : boundary ≠ []
  noQuote : '"' ∉ boundary
  isToken : quoted = false → (∀ char ∈ boundary, isWhitespace char = false ∧ char ≠ ';') ∧
    ∀ char, tail.head? = some char → isWhitespace char = true ∨ char = ';'
  unbroken : ∀ line ∈ preamble ++ epilogue, Unbroken line

/-- The parts of a part in several parts, in their order. -/
inductive BodyParts where
  | nil
  | leaf (part : BodyPart) (rest : BodyParts)
  | multi (head : Container) (inner rest : BodyParts)

namespace BodyPart

def lines (part : BodyPart) : List Text := part.fields.flatMap Field.lines ++ [] :: part.body

/-- The part as it is cut out of the lines. -/
def text (part : BodyPart) : Text :=
  (trimStartCrlf (feedLines part.lines)).dropWhile (· = '\n')

end BodyPart

def Container.fields (head : Container) : List Field := head.before ++ head.contentType :: head.after

namespace BodyParts

/-- The leaves in the order of the document. -/
def leaves : BodyParts → List BodyPart
  | nil => []
  | leaf part rest => part :: rest.leaves
  | multi _ inner rest => inner.leaves ++ rest.leaves

/-- The lines of the parts, from the first delimiter to the closing one. -/
def lines (boundary : Text) : BodyParts → List Text
  | nil => ["--".toList ++ boundary ++ "--".toList]
  | leaf part rest => ("--".toList ++ boundary) :: (part.lines ++ rest.lines boundary)
  | multi head inner rest =>
    ("--".toList ++ boundary) ::
      (head.fields.flatMap Field.lines ++ [] ::
        (head.preamble ++ (inner.lines head.boundary ++ head.epilogue)) ++ rest.lines boundary)

end BodyParts

namespace Container

/-- The lines behind the head of a part in several parts. -/
def bodyLines (head : Container) (inner : BodyParts) : List Text :=
  head.preamble ++ (inner.lines head.boundary ++ head.epilogue)

def lines (head : Container) (inner : BodyParts) : List Text :=
  head.fields.flatMap Field.lines ++ [] :: head.bodyLines inner

end Container

/-- No delimiter of a boundary begins any of the lines. -/
def Clear (boundary : Text) (lines : List Text) : Prop :=
  ∀ line ∈ lines, ("--".toList ++ boundary).isPrefixOf line = false

/-- No line of a part is taken for a delimiter of the boundaries around it. -/
def BodyParts.Delimited (boundary : Text) : BodyParts → Prop
  | nil => True
  | leaf part rest => Clear boundary part.lines ∧ rest.Delimited boundary
  | multi head inner rest =>
    Clear boundary (head.lines inner) ∧ Clear head.boundary head.preamble ∧
      inner.Delimited head.boundary ∧ rest.Delimited boundary

/-- A message in several parts, as it is submitted. -/
structure SubmittedMessage where
  head : Container
  parts : BodyParts
  clear : Clear head.boundary head.preamble
  delimited : parts.Delimited head.boundary

namespace SubmittedMessage

def body (message : SubmittedMessage) : Text :=
  (message.head.bodyLines message.parts).flatMap fun line => line ++ newline

def raw (message : SubmittedMessage) : Text :=
  joinLines (message.head.fields.flatMap Field.lines) ++ newline ++ newline ++ message.body

end SubmittedMessage

/-! ## What is to be listed -/

namespace BodyPart

def type (part : BodyPart) : Text :=
  ((fieldValue part.fields "content-type").getD []).map Char.toLower

def disposition (part : BodyPart) : Text :=
  ((fieldValue part.fields "content-disposition").getD []).map Char.toLower

/-- A text by its media type, which is what a part without a Content-Type is. -/
def IsText (part : BodyPart) : Prop :=
  fieldValue part.fields "content-type" = none ∨ "text/".toList <+: part.type

/-- A part that is no text, or that is sent as an attachment. -/
def IsFile (part : BodyPart) : Prop :=
  ¬ part.IsText ∨ trim (part.disposition.takeWhile (· ≠ ';')) = "attachment".toList

/-- The Content-Type does not speak of several parts, and the part is an attachment by its
Content-Disposition or has a name in a Content-Type that does not speak of text. -/
def IsListed (casing : Casing) (part : BodyPart) : Prop :=
  ¬ "multipart/".toList <:+: part.type ∧ ("attachment".toList <:+: part.disposition ∨
      (extractParam casing ((fieldValue part.fields "content-type").getD []) "name").isSome ∧
        ¬ "text/".toList <:+: part.type)

end BodyPart

section Sources

variable (casing : Casing)

/-- The attachment that is made of a part. -/
def attachmentOfPart (part : Text) : Attachment :=
  attachmentOf casing (parseHeaders casing (splitHeadersBody part).1) (splitHeadersBody part).2

/-- The parts that the loop of `extract_multipart_body_and_attachments` makes attachments of
when it reads a part. -/
def attachmentParts (sources : Text → Text → List Text) (part : Text) : List Text :=
  let headers := parseHeaders casing (splitHeadersBody part).1
  if contains (lowerHeader casing headers "content-type") "multipart/".toList then
    sources (splitHeadersBody part).2 ((getHeader headers "content-type").getD [])
  else if isAttachment casing headers then [part] else []

/-- The parts that `extract_multipart_body_and_attachments` makes its attachments of. -/
def sourcesOf : Nat → Text → Text → List Text
  | 0, _, _ => []
  | fuel + 1, body, contentType =>
    match extractBoundary casing contentType with
    | none => []
    | some boundary =>
      (splitMimeParts body boundary).flatMap (attachmentParts casing (sourcesOf fuel))

/-! ### Every attachment has its part -/

section Parts

variable {extract : Text → Text → BodyRead} {sources : Text → Text → List Text}

section

variable
    (made : ∀ body contentType, (extract body contentType).attachments = (sources body contentType).map (attachmentOfPart casing))

include made

theorem readPart_attachments (read : PartsRead) (part : Text) :
    (readPart casing extract read part).attachments =
      read.attachments ++ (attachmentParts casing sources part).map (attachmentOfPart casing) := by
  unfold readPart attachmentParts
  dsimp only
  split
  · simp [PartsRead.nested, made]
  · split
    · simp [attachmentOfPart]
    · split
      · simp
      · split <;> simp

theorem foldl_readPart_attachments (parts : List Text)
    (read : PartsRead) : (parts.foldl (readPart casing extract) read).attachments = read.attachments ++
        (parts.flatMap (attachmentParts casing sources)).map (attachmentOfPart casing) := by
  induction parts generalizing read with
  | nil => simp
  | cons part rest ih =>
    rw [List.foldl_cons, ih, readPart_attachments casing made, List.flatMap_cons,
      List.map_append, List.append_assoc]

end

end Parts

theorem extractMultipart_attachments (fuel : Nat) (body contentType : Text) :
    (extractMultipart casing fuel body contentType).attachments =
      (sourcesOf casing fuel body contentType).map (attachmentOfPart casing) := by
  induction fuel generalizing body contentType with
  | zero => rfl
  | succ fuel ih =>
    cases isBoundary : extractBoundary casing contentType with
    | none => simp [extractMultipart, sourcesOf, isBoundary]
    | some boundary =>
      have made := foldl_readPart_attachments casing ih (splitMimeParts body boundary) ⟨none, none, []⟩
      simp only [extractMultipart, sourcesOf, isBoundary, finish_attachments, made, List.nil_append]

theorem length_lt_of_mem_attachmentParts {sources : Text → Text → List Text} {part source : Text}
    (shorter : ∀ body contentType, source ∈ sources body contentType → source.length < body.length)
    (mem : source ∈ attachmentParts casing sources part) : source.length ≤ part.length := by
  have bodyShorter := length_splitHeadersBody_le part
  unfold attachmentParts at mem
  dsimp only at mem
  split at mem
  · have short := shorter _ _ mem
    omega
  · split at mem
    · rw [List.mem_singleton.mp mem]
    · cases mem

/-- An attachment is made of less than the body it is found in. -/
theorem length_lt_of_mem_sourcesOf {fuel : Nat} {body contentType source : Text}
    (mem : source ∈ sourcesOf casing fuel body contentType) : source.length < body.length := by
  induction fuel generalizing body contentType with
  | zero => cases mem
  | succ fuel ih =>
    rw [sourcesOf] at mem
    split at mem
    · cases mem
    · obtain ⟨part, isPart, inPart⟩ := List.mem_flatMap.mp mem
      have notLonger := length_lt_of_mem_attachmentParts casing (fun _ _ => ih) inPart
      exact lt_of_le_of_lt notLonger (length_lt_of_mem_splitMimeParts isPart)

theorem attachmentParts_congr {sources other : Text → Text → List Text} {part : Text}
    (same : ∀ contentType, sources (splitHeadersBody part).2 contentType =
      other (splitHeadersBody part).2 contentType) :
    attachmentParts casing sources part = attachmentParts casing other part := by
  unfold attachmentParts
  dsimp only
  rw [same]

/-- A body without characters has no parts. -/
theorem sourcesOf_nil (fuel : Nat) (contentType : Text) : sourcesOf casing fuel [] contentType = [] := by
  refine List.eq_nil_iff_forall_not_mem.mpr fun source mem => ?_
  exact absurd (length_lt_of_mem_sourcesOf casing mem) (Nat.not_lt_zero _)

/-- The fuel is never used up. -/
theorem sourcesOf_fuel {fuel other : Nat} {body : Text} (enough : body.length ≤ fuel)
    (otherEnough : body.length ≤ other) (contentType : Text) :
    sourcesOf casing fuel body contentType = sourcesOf casing other body contentType := by
  induction fuel generalizing other body contentType with
  | zero =>
    rw [List.length_eq_zero_iff.mp (Nat.le_zero.mp enough), sourcesOf_nil, sourcesOf_nil]
  | succ fuel ih =>
    cases other with
    | zero =>
      rw [List.length_eq_zero_iff.mp (Nat.le_zero.mp otherEnough), sourcesOf_nil, sourcesOf_nil]
    | succ other =>
      have parts : ∀ boundary, (splitMimeParts body boundary).flatMap
          (attachmentParts casing (sourcesOf casing fuel)) =
          (splitMimeParts body boundary).flatMap (attachmentParts casing (sourcesOf casing other)) := by
        intro boundary
        refine List.flatMap_congr fun part mem => attachmentParts_congr casing ?_
        have shorter := length_lt_of_mem_splitMimeParts mem
        have notLonger := length_splitHeadersBody_le part
        exact ih (by omega) (by omega)
      unfold sourcesOf
      split
      · rfl
      · rw [parts]

/-- A part is read with the fuel of any text that is not shorter. -/
theorem attachmentParts_fuel {fuel other : Nat} {part : Text} (enough : part.length ≤ fuel)
    (otherEnough : part.length ≤ other) : attachmentParts casing (sourcesOf casing fuel) part =
      attachmentParts casing (sourcesOf casing other) part := by
  have notLonger := length_splitHeadersBody_le part
  exact attachmentParts_congr casing (sourcesOf_fuel casing (by omega) (by omega))

/-- A part is the one thing an attachment is made of when it is read, exactly where it is not
read as several parts and is an attachment itself. -/
theorem attachmentParts_eq_self_iff {fuel : Nat} {part : Text} :
    let headers := parseHeaders casing (splitHeadersBody part).1
    attachmentParts casing (sourcesOf casing fuel) part = [part] ↔
      contains (lowerHeader casing headers "content-type") "multipart/".toList = false ∧
        isAttachment casing headers = true := by
  intro headers
  have bodyShorter := length_splitHeadersBody_le part
  unfold attachmentParts
  dsimp only
  constructor
  · intro single
    split at single
    · have inside := single.symm ▸ List.mem_singleton_self part
      have shorter := length_lt_of_mem_sourcesOf casing inside
      omega
    next noParts =>
      split at single
      next isFile => exact ⟨Bool.eq_false_iff.mpr noParts, isFile⟩
      next => cases single
  · rintro ⟨noParts, isFile⟩
    rw [if_neg (Bool.eq_false_iff.mp noParts), if_pos isFile]

/-! ### Leaves -/

/-- The parts that attachments are made of when a leaf is read. -/
def leafSources (part : BodyPart) : List Text :=
  attachmentParts casing (sourcesOf casing part.text.length) part.text

/-- The attachments of a message are made of its leaves in the order of the document, and of
a leaf that is a file exactly one is made, which is its own. -/
def ListsFiles (message : SubmittedMessage) : Prop :=
  (parseBody casing message.raw).attachments =
      (message.parts.leaves.flatMap (leafSources casing)).map (attachmentOfPart casing) ∧
    ∀ part ∈ message.parts.leaves, part.IsFile → leafSources casing part = [part.text]

/-! ### Fields -/

theorem plain_of_isNameChar {char : Char} (isName : isNameChar char = true) :
    char.toNat < 128 ∧ isWhitespace char = false ∧ char ≠ ':' := by
  have small : char.toNat < 128 := by
    simp only [isNameChar, Bool.and_eq_true, decide_eq_true_eq] at isName
    omega
  have facts := @of_ascii (fun char => isNameChar char = true →
    isWhitespace char = false ∧ char ≠ ':') (by decide) char small
  exact ⟨small, facts isName⟩

namespace Field

variable (field : Field)

theorem plain_name : ∀ char ∈ field.name, char.toNat < 128 ∧ isWhitespace char = false ∧ char ≠ ':' :=
  fun char mem => plain_of_isNameChar (List.all_eq_true.mp field.isName char mem)

theorem solid_lines : ∀ line ∈ field.lines, line ≠ [] ∧ Unbroken line := by
  obtain ⟨first, rows⟩ := List.forall_mem_cons.mp field.unbroken
  have name : Unbroken field.name :=
    Unbroken.of_solid fun char mem => (field.plain_name char mem).2.1
  refine List.forall_mem_cons.mpr ⟨⟨by simp, ?_⟩, fun row mem => ⟨?_, rows row mem⟩⟩
  · simp [name, first]
  · rintro rfl
    rcases field.folded [] mem with blank | tab
    · cases blank
    · cases tab

/-- The rows of a field are put behind its value. -/
theorem foldl_rows (headers : List (Text × Text)) (name value : Text) {rows : List Text}
    (folded : ∀ row ∈ rows, row.head? = some ' ' ∨ row.head? = some '\t') :
    rows.foldl (HeaderReader.line casing) ⟨headers, name, value⟩ =
      ⟨headers, name, value ++ rows.flatMap fun row => ' ' :: trim row⟩ := by
  induction rows generalizing value with
  | nil => simp
  | cons row rest ih =>
    obtain ⟨first, folded⟩ := List.forall_mem_cons.mp folded
    rw [List.foldl_cons, HeaderReader.line, if_pos first, ih _ folded, List.flatMap_cons, List.append_assoc]

/-- The lines of a field are read as its name and its value. -/
theorem foldl_lines (reader : HeaderReader) : (field.lines.foldl (HeaderReader.line casing) reader).finish casing =
      reader.finish casing ++ [(field.name.map Char.toLower, field.value)] := by
  have lower := casing.toLowercase_ascii field.name fun char mem =>
    (field.plain_name char mem).1
  rw [lines, List.foldl_cons, line_field casing reader field.hasName
      (fun char mem => (field.plain_name char mem).2), foldl_rows casing _ _ _ field.folded,
    HeaderReader.finish, if_neg field.hasName, lower]
  rfl

/-- A character of a value stands in the field, or for a fold. -/
theorem mem_value {char : Char} (mem : char ∈ field.value) :
    char = ' ' ∨ ∃ row ∈ field.first :: field.rows, char ∈ row := by
  have trimmed : ∀ text : Text, char ∈ trim text → char ∈ text := fun text inTrim =>
    (List.dropWhile_suffix _).subset ((List.rdropWhile_prefix _ _).subset inTrim)
  rcases List.mem_append.mp (trimmed _ mem) with inFirst | inRows
  · exact Or.inr ⟨field.first, List.mem_cons_self, inFirst⟩
  · obtain ⟨row, isRow, inRow⟩ := List.mem_flatMap.mp inRows
    rcases List.mem_cons.mp inRow with isBlank | inTrim
    · exact Or.inl isBlank
    · exact Or.inr ⟨row, List.mem_cons_of_mem _ isRow, trimmed row inTrim⟩

theorem ascii_value : ∀ char ∈ field.value, char.toNat < 128 := by
  intro char mem
  rcases field.mem_value mem with rfl | ⟨row, isRow, inRow⟩
  · decide
  · exact field.ascii row isRow char inRow

end Field

section Fields

variable (fields : List Field)

theorem solid_flatMap_lines : ∀ line ∈ fields.flatMap Field.lines, line ≠ [] ∧ Unbroken line := by
  intro line mem
  obtain ⟨field, -, inField⟩ := List.mem_flatMap.mp mem
  exact field.solid_lines line inField

theorem foldl_flatMap_lines (reader : HeaderReader) :
    ((fields.flatMap Field.lines).foldl (HeaderReader.line casing) reader).finish casing =
      reader.finish casing ++ fields.map fun field => (field.name.map Char.toLower, field.value) := by
  induction fields generalizing reader with
  | nil => simp
  | cons field rest ih =>
    rw [List.flatMap_cons, List.foldl_append, ih, Field.foldl_lines, List.append_assoc]
    rfl

/-- The headers that are read of fields are their values. -/
theorem getHeader_fields (name : String) :
    getHeader (fields.map fun field => (field.name.map Char.toLower, field.value)) name = fieldValue fields name := by
  rw [getHeader, fieldValue, List.find?_map, Option.map_map]
  rfl

theorem parseHeaders_fields : parseHeaders casing (joinFeeds (fields.flatMap Field.lines)) =
      fields.map fun field => (field.name.map Char.toLower, field.value) := by
  rw [parseHeaders, lines_joinFeeds (solid_flatMap_lines fields), foldl_flatMap_lines]
  rfl

theorem ascii_fieldValue (name : String) : ∀ char ∈ (fieldValue fields name).getD [], char.toNat < 128 := by
  intro char mem
  cases found : fields.find? fun field => field.name.map Char.toLower = name.toList with
  | none =>
    rw [fieldValue, found] at mem
    cases mem
  | some field =>
    rw [fieldValue, found] at mem
    exact field.ascii_value char mem

/-- A header in lower case is the field's value in lower case. -/
theorem lowerHeader_fields (name : String) :
    lowerHeader casing (fields.map fun field => (field.name.map Char.toLower, field.value)) name =
      ((fieldValue fields name).getD []).map Char.toLower := by
  rw [lowerHeader, getHeader_fields, casing.toLowercase_ascii _ (ascii_fieldValue fields name)]

end Fields

/-- The first field of a name is none before another one. -/
theorem fieldValue_append_cons {before after : List Field} {field : Field} {name : String}
    (isFirst : ∀ field ∈ before, field.name.map Char.toLower ≠ name.toList)
    (isNamed : field.name.map Char.toLower = name.toList) :
    fieldValue (before ++ field :: after) name = some field.value := by
  have notBefore : before.find? (fun field => field.name.map Char.toLower = name.toList) = none := by
    rw [List.find?_eq_none]
    exact fun field mem => by simpa using isFirst field mem
  rw [fieldValue, List.find?_append, notBefore, Option.none_or,
    List.find?_cons_of_pos (by simpa using isNamed), Option.map_some]

/-- Lines that begin with a field are a part as they are. -/
theorem finishPart_flatMap_lines {fields : List Field} (notEmpty : fields ≠ []) (body : List Text) :
    finishPart true (feedLines (fields.flatMap Field.lines ++ body)) =
      [feedLines (fields.flatMap Field.lines ++ body)] := by
  obtain ⟨field, rest, rfl⟩ := List.exists_cons_of_ne_nil notEmpty
  obtain ⟨head, later, isName⟩ := List.exists_cons_of_ne_nil field.hasName
  have visible := (field.plain_name head (isName ▸ List.mem_cons_self)).2.1
  have notBreak : head ≠ '\r' ∧ head ≠ '\n' := by
    refine ⟨?_, ?_⟩ <;> rintro rfl <;> exact absurd visible (by decide)
  obtain ⟨behind, isText⟩ :
      ∃ behind, feedLines ((field :: rest).flatMap Field.lines ++ body) = head :: behind := by
    rw [List.flatMap_cons, Field.lines, List.cons_append, List.cons_append, feedLines_cons, isName]
    exact ⟨_, rfl⟩
  rw [isText, finishPart_feedLines notBreak]

theorem flatMap_lines_ne_nil {fields : List Field} (notEmpty : fields ≠ []) : fields.flatMap Field.lines ≠ [] := by
  obtain ⟨field, rest, rfl⟩ := List.exists_cons_of_ne_nil notEmpty
  simp [Field.lines]

/-! ### Leaves -/

namespace BodyPart

variable (part : BodyPart)

theorem finishPart_lines : finishPart true (feedLines part.lines) = [part.text] := by
  have notEmpty : feedLines part.lines ≠ [] := by
    simp [feedLines, lines]
  rw [finishPart, if_pos (by simp [notEmpty]), text]

/-- A part with a header is cut out as it stands. -/
theorem text_eq (notEmpty : part.fields ≠ []) : part.text = feedLines part.lines := by
  have cut := finishPart_flatMap_lines notEmpty ([] :: part.body)
  rw [← lines, finishPart_lines] at cut
  exact List.singleton_inj.mp cut

theorem fields_ne_nil (isFile : part.IsFile) : part.fields ≠ [] := by
  intro isEmpty
  rcases isFile with noText | isSent
  · exact noText (Or.inl (by rw [isEmpty]; rfl))
  · rw [disposition, isEmpty] at isSent
    exact absurd isSent (by decide)

theorem isAttachment_iff : isAttachment casing
        (part.fields.map fun field => (field.name.map Char.toLower, field.value)) = true ↔
      "attachment".toList <:+: part.disposition ∨
        (extractParam casing ((fieldValue part.fields "content-type").getD []) "name").isSome ∧
          ¬ "text/".toList <:+: part.type := by
  rw [isAttachment, lowerHeader_fields, lowerHeader_fields, getHeader_fields, Bool.or_eq_true,
    Bool.and_eq_true, Bool.not_eq_true', ← Bool.not_eq_true, contains_iff, contains_iff]
  rfl

/-- The headers of a part are read as its fields. -/
theorem parseHeaders_text (notEmpty : part.fields ≠ []) : parseHeaders casing (splitHeadersBody part.text).1 =
      part.fields.map fun field => (field.name.map Char.toLower, field.value) := by
  have split := splitHeadersBody_lines (flatMap_lines_ne_nil notEmpty)
    (solid_flatMap_lines part.fields) part.unbroken
  rw [part.text_eq notEmpty, lines, split, parseHeaders_fields]

/-- A file is the one thing an attachment is made of when it is read, exactly where it is
listed. -/
theorem leafSources_eq_iff (isFile : part.IsFile) : leafSources casing part = [part.text] ↔ part.IsListed casing := by
  have headers := part.parseHeaders_text casing (part.fields_ne_nil isFile)
  have single := @attachmentParts_eq_self_iff casing part.text.length part.text
  rw [headers] at single
  dsimp only at single
  rw [isAttachment_iff, lowerHeader_fields, ← Bool.not_eq_true, contains_iff] at single
  exact single

end BodyPart

/-! ### Parts in several parts -/

namespace Container

variable (head : Container)

theorem fieldValue_fields : fieldValue head.fields "content-type" = some head.contentType.value :=
  fieldValue_append_cons head.isFirstType head.isTyped

theorem fields_ne_nil : head.fields ≠ [] := by
  simp [fields]

theorem unbroken_boundary : Unbroken head.boundary := by
  rw [Unbroken.iff_forall]
  intro char mem
  have inValue : char ∈ head.contentType.value := by
    rw [head.isType]
    refine List.mem_append_left _ (List.mem_append_right _ ?_)
    split
    · exact List.mem_cons_of_mem _ (List.mem_append_left _ mem)
    · exact mem
  rcases head.contentType.mem_value inValue with rfl | ⟨row, isRow, inRow⟩
  · decide
  · exact Unbroken.iff_forall.mp (head.contentType.unbroken row isRow) char inRow

/-- A Content-Type of several parts speaks of several parts. -/
theorem contains_contentType :
    contains (head.contentType.value.map Char.toLower) "multipart/".toList = true := by
  rw [contains_iff, head.isType, List.append_assoc, List.append_assoc, List.map_append]
  have begins := List.isPrefixOf_iff_prefix.mp head.isMultipart
  exact (begins.trans (List.prefix_append _ _)).isInfix

/-- The boundary is read from the Content-Type, in quotes or without them. -/
theorem extractBoundary_contentType : extractBoundary casing head.contentType.value = some head.boundary := by
  have lower := casing.toLowercase_ascii _ head.contentType.ascii_value
  have keyLength : head.key.length = "boundary=".toList.length := by
    rw [← head.isKey, List.length_map]
  have isValue : head.contentType.value = (head.front ++ head.key) ++
      ((if head.quoted then '"' :: (head.boundary ++ ['"']) else head.boundary) ++ head.tail) := by
    rw [head.isType, List.append_assoc]
  have found : before? "boundary=".toList (head.contentType.value.map Char.toLower) =
      some (head.front.map Char.toLower) := by
    rw [isValue, List.map_append]
    exact before?_append_right head.isFirstKey _
  have position : head.contentType.value.drop
      ((head.front.map Char.toLower).length + "boundary=".toList.length) =
      (if head.quoted then '"' :: (head.boundary ++ ['"']) else head.boundary) ++ head.tail := by
    rw [isValue, List.length_map, ← keyLength, ← List.length_append, List.drop_left]
  rw [extractBoundary, parameterValue, lower, found, Option.bind_some, position]
  cases isQuoted : head.quoted with
  | true =>
    have stops : (head.boundary ++ '"' :: head.tail).takeWhile (· ≠ '"') = head.boundary := by
      rw [List.takeWhile_append_of_pos]
      · simp
      · intro char mem
        simpa using fun same : char = '"' => head.noQuote (same ▸ mem)
    simp only [if_true, List.cons_append, List.append_assoc, List.nil_append, List.head?_cons,
      List.tail_cons, stops, if_neg head.hasBoundary]
  | false =>
    obtain ⟨token, ends⟩ := head.isToken isQuoted
    obtain ⟨first, rest, isBoundary⟩ := List.exists_cons_of_ne_nil head.hasBoundary
    have notQuote : first ≠ '"' := fun same =>
      head.noQuote (by rw [isBoundary, same]; exact List.mem_cons_self)
    have stops : (head.boundary ++ head.tail).takeWhile
        (fun char => !(isWhitespace char || char = ';')) = head.boundary := by
      rw [List.takeWhile_append_of_pos]
      · have endsHere : head.tail.takeWhile (fun char => !(isWhitespace char || char = ';')) = [] := by
          rw [List.takeWhile_eq_nil_iff]
          intro notEmpty
          have isEnd := ends _ (List.head?_eq_getElem? (l := head.tail) ▸ List.getElem?_eq_getElem notEmpty)
          rcases isEnd with blank | mark
          · simp [blank]
          · simp [mark]
        rw [endsHere, List.append_nil]
      · intro char mem
        obtain ⟨visible, noMark⟩ := token char mem
        simp [visible, noMark]
    have noQuotes : (head.boundary ++ head.tail).head? ≠ some '"' := by
      rw [isBoundary]
      exact fun same => notQuote (Option.some.inj same)
    simp only [Bool.false_eq_true, if_false, if_neg noQuotes, stops, if_neg head.hasBoundary]

/-- The head of a part in several parts and its body, as they are cut apart. -/
theorem splitHeadersBody_lines {inner : BodyParts} (unbroken : ∀ line ∈ head.bodyLines inner, Unbroken line) :
    splitHeadersBody (feedLines (head.lines inner)) =
      (joinFeeds (head.fields.flatMap Field.lines), feedLines (head.bodyLines inner)) :=
  Mail.splitHeadersBody_lines (flatMap_lines_ne_nil head.fields_ne_nil)
    (solid_flatMap_lines head.fields) unbroken

/-- A part in several parts is read as the parts in it. -/
theorem attachmentParts_lines {inner : BodyParts} (unbroken : ∀ line ∈ head.bodyLines inner, Unbroken line)
    (sources : Text → Text → List Text) : attachmentParts casing sources (feedLines (head.lines inner)) =
      sources (feedLines (head.bodyLines inner)) head.contentType.value := by
  have split := head.splitHeadersBody_lines unbroken
  have lower := lowerHeader_fields casing head.fields "content-type"
  rw [head.fieldValue_fields, Option.getD_some] at lower
  rw [attachmentParts, split, parseHeaders_fields]
  dsimp only
  rw [lower, head.contains_contentType, if_pos rfl, getHeader_fields, head.fieldValue_fields,
    Option.getD_some]

end Container

namespace BodyParts

/-- The parts as they are cut out of the lines. -/
def texts : BodyParts → List Text
  | nil => []
  | leaf part rest => part.text :: rest.texts
  | multi head inner rest => feedLines (head.lines inner) :: rest.texts

theorem unbroken_lines {boundary : Text} (unbroken : Unbroken boundary) (parts : BodyParts) :
    ∀ line ∈ parts.lines boundary, Unbroken line := by
  have hyphens : Unbroken "--".toList := by decide
  have delimiter : Unbroken ("--".toList ++ boundary) := Unbroken.append_iff.mpr ⟨hyphens, unbroken⟩
  induction parts generalizing boundary with
  | nil =>
    intro line mem
    rw [List.mem_singleton.mp mem]
    exact Unbroken.append_iff.mpr ⟨delimiter, hyphens⟩
  | leaf part rest ih =>
    refine List.forall_mem_cons.mpr ⟨delimiter, List.forall_mem_append.mpr
      ⟨List.forall_mem_append.mpr ⟨?_, List.forall_mem_cons.mpr ⟨Unbroken.nil, part.unbroken⟩⟩,
        ih unbroken delimiter⟩⟩
    exact fun line mem => (solid_flatMap_lines part.fields line mem).2
  | multi head inner rest innerHypothesis restHypothesis =>
    obtain ⟨preamble, epilogue⟩ := List.forall_mem_append.mp head.unbroken
    have inside := head.unbroken_boundary
    have inner := innerHypothesis inside (Unbroken.append_iff.mpr ⟨hyphens, inside⟩)
    refine List.forall_mem_cons.mpr ⟨delimiter, List.forall_mem_append.mpr
      ⟨List.forall_mem_append.mpr ⟨?_, List.forall_mem_cons.mpr ⟨Unbroken.nil, ?_⟩⟩,
        restHypothesis unbroken delimiter⟩⟩
    · exact fun line mem => (solid_flatMap_lines head.fields line mem).2
    · exact List.forall_mem_append.mpr ⟨preamble, List.forall_mem_append.mpr ⟨inner, epilogue⟩⟩

/-- The lines of parts are cut at their own boundary, and nothing is read behind them. -/
theorem mimePartsFrom_lines {boundary : Text} {parts : BodyParts}
    (delimited : parts.Delimited boundary) (epilogue : List Text) (inPart : Bool) (current : Text) :
    mimePartsFrom boundary inPart current (parts.lines boundary ++ epilogue) =
      finishPart inPart current ++ parts.texts := by
  obtain ⟨notEnd, isDelimiter⟩ := @isPrefixOf_delimiter_self boundary
  induction parts generalizing inPart current with
  | nil =>
    have isEnd : ("--".toList ++ boundary ++ "--".toList).isPrefixOf
        ("--".toList ++ boundary ++ "--".toList) = true :=
      List.isPrefixOf_iff_prefix.mpr (List.prefix_refl _)
    rw [lines, List.cons_append, mimePartsFrom, isEnd, if_pos rfl, texts, List.append_nil]
  | leaf part rest ih =>
    obtain ⟨clear, later⟩ := delimited
    rw [lines, List.cons_append, mimePartsFrom, notEnd, isDelimiter, if_neg (by decide),
      if_pos rfl, List.append_assoc, mimePartsFrom_append clear, ih later,
      List.nil_append, part.finishPart_lines]
    rfl
  | multi head inner rest innerHypothesis restHypothesis =>
    obtain ⟨clear, -, -, later⟩ := delimited
    have whole : feedLines (head.lines inner) ≠ [] := by
      simp [feedLines, Container.lines]
    rw [lines, List.cons_append, mimePartsFrom, notEnd, isDelimiter, if_neg (by decide),
      if_pos rfl, List.append_assoc, ← Container.bodyLines, ← Container.lines,
      mimePartsFrom_append clear, restHypothesis later, List.nil_append, Container.lines,
      finishPart_flatMap_lines head.fields_ne_nil]
    rfl

end BodyParts

/-- Lines before the first delimiter are not read. -/
theorem mimePartsFrom_preamble {boundary : Text} {preamble : List Text}
    (clear : Clear boundary preamble) (current : Text) (rest : List Text) :
    mimePartsFrom boundary false current (preamble ++ rest) = mimePartsFrom boundary false current rest := by
  induction preamble with
  | nil => rfl
  | cons line later ih =>
    obtain ⟨first, clear⟩ := List.forall_mem_cons.mp clear
    rw [List.cons_append, mimePartsFrom, isPrefixOf_end first, first, if_neg (by decide),
      if_neg (by decide), if_neg (by decide), ih clear]

namespace Container

variable {head : Container} {inner : BodyParts}

theorem unbroken_bodyLines : ∀ line ∈ head.bodyLines inner, Unbroken line := by
  obtain ⟨preamble, epilogue⟩ := List.forall_mem_append.mp head.unbroken
  exact List.forall_mem_append.mpr ⟨preamble, List.forall_mem_append.mpr
    ⟨inner.unbroken_lines head.unbroken_boundary, epilogue⟩⟩

/-- The lines of a body are cut into the parts that were written. -/
theorem mimePartsFrom_bodyLines (clear : Clear head.boundary head.preamble)
    (delimited : inner.Delimited head.boundary) :
    mimePartsFrom head.boundary false [] (head.bodyLines inner) = inner.texts := by
  rw [bodyLines, mimePartsFrom_preamble clear, BodyParts.mimePartsFrom_lines delimited]
  rfl

theorem sourcesOf_succ {fuel : Nat} {body : Text} (cut : splitMimeParts body head.boundary = inner.texts) :
    sourcesOf casing (fuel + 1) body head.contentType.value =
      inner.texts.flatMap (attachmentParts casing (sourcesOf casing fuel)) := by
  rw [sourcesOf, extractBoundary_contentType]
  simp only [cut]

end Container

/-- The attachments of parts are made of their leaves. -/
theorem flatMap_texts {boundary : Text} {parts : BodyParts} (delimited : parts.Delimited boundary)
    {fuel : Nat} (enough : ∀ text ∈ parts.texts, text.length ≤ fuel) :
    parts.texts.flatMap (attachmentParts casing (sourcesOf casing fuel)) =
      parts.leaves.flatMap (leafSources casing) := by
  induction parts generalizing boundary fuel with
  | nil => rfl
  | leaf part rest ih =>
    obtain ⟨first, enough⟩ := List.forall_mem_cons.mp enough
    have same := @attachmentParts_fuel casing fuel part.text.length part.text first (Nat.le_refl _)
    rw [BodyParts.texts, BodyParts.leaves, List.flatMap_cons, List.flatMap_cons, ih delimited.2 enough, same]
    rfl
  | multi head inner rest innerHypothesis restHypothesis =>
    obtain ⟨-, clear, delimitedInner, delimitedRest⟩ := delimited
    obtain ⟨short, enoughRest⟩ := List.forall_mem_cons.mp enough
    have cut : splitMimeParts (feedLines (head.bodyLines inner)) head.boundary = inner.texts := by
      rw [splitMimeParts, lines_feedLines Container.unbroken_bodyLines,
        Container.mimePartsFrom_bodyLines clear delimitedInner]
    have bodyShorter : (feedLines (head.bodyLines inner)).length < (feedLines (head.lines inner)).length := by
      rw [Container.lines, feedLines_append, feedLines_cons, List.length_append,
        List.length_append, List.length_cons]
      omega
    obtain ⟨spare, rfl⟩ := Nat.exists_eq_add_one_of_ne_zero (by omega : fuel ≠ 0)
    have enoughInner : ∀ text ∈ inner.texts, text.length ≤ spare := by
      intro text mem
      have shorter := length_lt_of_mem_splitMimeParts (cut ▸ mem)
      omega
    rw [BodyParts.texts, BodyParts.leaves, List.flatMap_cons, List.flatMap_append,
      head.attachmentParts_lines casing Container.unbroken_bodyLines,
      Container.sourcesOf_succ casing cut, innerHypothesis delimitedInner enoughInner,
      restHypothesis delimitedRest enoughRest]

/-! ### The message -/

/-- The attachments of a message are made of its leaves in the order of the document. -/
theorem parseBody_attachments (message : SubmittedMessage) : (parseBody casing message.raw).attachments =
      (message.parts.leaves.flatMap (leafSources casing)).map (attachmentOfPart casing) := by
  have solid := solid_flatMap_lines message.head.fields
  have split : splitHeadersBody message.raw =
      (joinLines (message.head.fields.flatMap Field.lines), message.body) :=
    splitHeadersBody_joinLines solid message.body
  have parsed : parseHeaders casing (joinLines (message.head.fields.flatMap Field.lines)) =
      message.head.fields.map fun field => (field.name.map Char.toLower, field.value) := by
    rw [parseHeaders, lines_joinLines solid, foldl_flatMap_lines]
    rfl
  have isType : getHeader (message.head.fields.map fun field =>
      (field.name.map Char.toLower, field.value)) "content-type" = some message.head.contentType.value := by
    rw [getHeader_fields, message.head.fieldValue_fields]
  have lower := casing.toLowercase_ascii _ message.head.contentType.ascii_value
  have hasParts := message.head.contains_contentType
  have cut : splitMimeParts message.body message.head.boundary = message.parts.texts := by
    have lines := lines_flatMap_crlf (@Container.unbroken_bodyLines message.head message.parts)
    rw [splitMimeParts, SubmittedMessage.body, newline, lines,
      Container.mimePartsFrom_bodyLines message.clear message.delimited]
  have enough : ∀ text ∈ message.parts.texts, text.length ≤ message.body.length :=
    fun text mem => Nat.le_of_lt (length_lt_of_mem_splitMimeParts (cut ▸ mem))
  rw [parseBody, split, parsed, isType]
  simp only [Option.getD_some, lower, hasParts, if_true]
  rw [extractMultipart_attachments, Container.sourcesOf_succ casing cut,
    flatMap_texts casing message.delimited enough]

/-- Every file of a message is listed, once and in the order of the document, exactly where
each of them has the words in its headers that are looked for. -/
theorem listsFiles_iff (message : SubmittedMessage) : ListsFiles casing message ↔
      ∀ part ∈ message.parts.leaves, part.IsFile → part.IsListed casing := by
  constructor
  · intro lists part mem isFile
    exact (part.leafSources_eq_iff casing isFile).mp (lists.2 part mem isFile)
  · intro listed
    refine ⟨parseBody_attachments casing message, fun part mem isFile => ?_⟩
    exact (part.leafSources_eq_iff casing isFile).mpr (listed part mem isFile)

end Sources

/-! ## A file that is lost -/

/-- The Content-Type of a message in two rows. -/
def mixedType : Field where
  name := "Content-Type".toList
  first := " multipart/mixed;".toList
  rows := ["\tboundary=outer".toList]
  hasName := by decide
  isName := by decide
  unbroken := by decide
  ascii := by decide
  folded := by decide

def mixedContainer : Container where
  before := []
  contentType := mixedType
  after := []
  front := "multipart/mixed; ".toList
  key := "boundary=".toList
  boundary := "outer".toList
  quoted := false
  tail := []
  preamble := []
  epilogue := []
  isTyped := by decide
  isFirstType := List.forall_mem_nil _
  isType := by decide
  isMultipart := by decide
  isKey := by decide
  isFirstKey := by decide
  hasBoundary := by decide
  noQuote := by decide
  isToken := fun _ => ⟨by decide, by intro char isFirst; cases isFirst⟩
  unbroken := List.forall_mem_nil _

def pdfType : Field where
  name := "Content-Type".toList
  first := " application/pdf".toList
  rows := []
  hasName := by decide
  isName := by decide
  unbroken := by decide
  ascii := by decide
  folded := List.forall_mem_nil _

def inlineDisposition : Field where
  name := "Content-Disposition".toList
  first := " inline; filename=\"a.pdf\"".toList
  rows := []
  hasName := by decide
  isName := by decide
  unbroken := by decide
  ascii := by decide
  folded := List.forall_mem_nil _

/-- A PDF that is to be shown in the place where it stands, with its name in the
Content-Disposition only. -/
def inlinePdf : BodyPart where
  fields := [pdfType, inlineDisposition]
  body := ["%PDF".toList]
  unbroken := by decide
  single := by
    intro type isType
    cases isType
    decide

def inlineMessage : SubmittedMessage where
  head := mixedContainer
  parts := .leaf inlinePdf .nil
  clear := List.forall_mem_nil _
  delimited := ⟨by unfold Clear; decide, trivial⟩

/-- The file is in no attachment of the message. -/
theorem inline_pdf_lost :
    (parseBody .ascii inlineMessage.raw).attachments = [] ∧ ¬ ListsFiles .ascii inlineMessage := by
  have headers := inlinePdf.parseHeaders_text .ascii (List.cons_ne_nil _ _)
  have noParts : contains (lowerHeader .ascii (inlinePdf.fields.map fun field =>
      (field.name.map Char.toLower, field.value)) "content-type") "multipart/".toList = false := by
    decide
  have noAttachment : isAttachment .ascii (inlinePdf.fields.map fun field =>
      (field.name.map Char.toLower, field.value)) = false := by decide
  have noSource : leafSources .ascii inlinePdf = [] := by
    rw [leafSources, attachmentParts, headers, noParts, noAttachment, if_neg (by decide), if_neg (by decide)]
  have isFile : inlinePdf.IsFile := by
    refine Or.inl fun isText => ?_
    rcases isText with noType | isText
    · cases noType
    · exact absurd (List.isPrefixOf_iff_prefix.mpr isText) (by decide)
  refine ⟨?_, fun lists => ?_⟩
  · rw [parseBody_attachments]
    simp [inlineMessage, BodyParts.leaves, noSource]
  · have single := lists.2 inlinePdf List.mem_cons_self isFile
    rw [noSource] at single
    cases single

end TutaBridge.Mail
