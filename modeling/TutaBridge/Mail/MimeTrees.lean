import TutaBridge.Mail.Mime

/-!
# Trees of parts

A message in several parts as it is meant: texts and files, and parts in several parts
themselves, each with a boundary of its own. It is written in lines, and what
`parse_rfc2822` finds in the lines is compared with what the tree holds.
-/

namespace TutaBridge.Mail

open TutaBridge.Std TutaBridge.Std.Text

/-! ## Trees -/

/-- A character that stands for itself between quotes. -/
def isQuotable (char : Char) : Bool :=
  32 ≤ char.toNat && char.toNat < 127 && char ≠ '"' && char ≠ '\\'

/-- The head of a part in several parts. -/
structure Multipart where
  subtype : String
  boundary : Text
  isSubtype : isFieldName subtype = true
  hasBoundary : boundary ≠ []
  quotable : boundary.all isQuotable = true

/-- A character of a media type. -/
def isMediaChar (char : Char) : Bool := char.isAlphanum || char ∈ "/-.+_".toList

/-- The media type of a file. -/
structure MediaType where
  text : Text
  notEmpty : text ≠ []
  isMedia : text.all isMediaChar = true
  notMultipart : contains (text.map Char.toLower) "multipart/".toList = false

/-- A part that is not in several parts. -/
inductive Leaf where
  | plain (content : Text)
  | html (content : Text)
  | file (name : Text) (mediaType : MediaType) (data : List UInt8)

/-- The parts of a part in several parts, in their order. -/
inductive Parts where
  | nil
  | leaf (part : Leaf) (rest : Parts)
  | multi (head : Multipart) (inner rest : Parts)

namespace Leaf

def html? : Leaf → Option Text
  | html content => some content
  | _ => none

def plain? : Leaf → Option Text
  | plain content => some content
  | _ => none

def attachment? : Leaf → Option Attachment
  | file name mediaType data => some ⟨name, mediaType.text.map Char.toLower, data⟩
  | _ => none

end Leaf

namespace Parts

/-- The leaves in the order of the document. -/
def leaves : Parts → List Leaf
  | nil => []
  | leaf part rest => part :: rest.leaves
  | multi _ inner rest => inner.leaves ++ rest.leaves

def boundaries : Parts → List Text
  | nil => []
  | leaf _ rest => rest.boundaries
  | multi head inner rest => head.boundary :: (inner.boundaries ++ rest.boundaries)

def files (parts : Parts) : List Attachment := parts.leaves.filterMap Leaf.attachment?

def firstHtml (parts : Parts) : Option Text := parts.leaves.findSome? Leaf.html?

def firstPlain (parts : Parts) : Option Text := parts.leaves.findSome? Leaf.plain?

end Parts

/-! ## Lines -/

/-- A file name that is written as it is. Any other is written as an encoded word. -/
def isPlainName (name : Text) : Bool :=
  name ≠ [] && name.all isQuotable && trim name = name && !contains name ['=', '?']

def filenameText (name : Text) : Text :=
  if isPlainName name then name else '=' :: '?' :: wordTail (base64Text name)

namespace Leaf

def fields : Leaf → List (String × Text)
  | plain _ =>
    [("Content-Type", "text/plain; charset=UTF-8".toList), ("Content-Transfer-Encoding", "base64".toList)]
  | html _ =>
    [("Content-Type", "text/html; charset=UTF-8".toList), ("Content-Transfer-Encoding", "base64".toList)]
  | file name mediaType _ =>
    [("Content-Type", mediaType.text), ("Content-Transfer-Encoding", "base64".toList),
      ("Content-Disposition", "attachment; filename=\"".toList ++ filenameText name ++ ['"'])]

def bytes : Leaf → List UInt8
  | plain content | html content => Utf8.encode content
  | file _ _ data => data

/-- The lines between two delimiters. -/
def lines (leaf : Leaf) : List Text :=
  fieldLines leaf.fields ++ [] :: chunks 76 (Base64.encodePadded Base64.standard leaf.bytes).toList

end Leaf

namespace Multipart

def field (head : Multipart) : String × Text :=
  ("Content-Type", multipartType head.subtype head.boundary)

end Multipart

namespace Parts

/-- The lines of the parts, from the first delimiter to the closing one. -/
def lines (boundary : Text) : Parts → List Text
  | nil => ["--".toList ++ boundary ++ "--".toList]
  | leaf part rest => ("--".toList ++ boundary) :: (part.lines ++ rest.lines boundary)
  | multi head inner rest =>
    ("--".toList ++ boundary) ::
      (fieldLines [head.field] ++ [] :: inner.lines head.boundary ++ rest.lines boundary)

/-- The lines of a part in several parts. -/
def multiLines (head : Multipart) (inner : Parts) : List Text :=
  fieldLines [head.field] ++ [] :: inner.lines head.boundary

/-- The parts as they are cut out of the lines. -/
def texts : Parts → List Text
  | nil => []
  | leaf part rest => feedLines part.lines :: rest.texts
  | multi head inner rest => feedLines (multiLines head inner) :: rest.texts

end Parts

/-- Neither of two boundaries begins with the other. -/
def Apart (first second : Text) : Prop := ¬ first <+: second ∧ ¬ second <+: first

/-- A message in several parts, with headers of any kind before its Content-Type. -/
structure MimeMessage where
  fields : List (String × Text)
  head : Multipart
  parts : Parts
  solid : ∀ field ∈ fields, isFieldName field.1 = true ∧ Unbroken field.2
  untyped : Lacks fields "content-type"
  apart : (head.boundary :: parts.boundaries).Pairwise Apart

namespace MimeMessage

def body (message : MimeMessage) : Text :=
  (message.parts.lines message.head.boundary).flatMap fun line => line ++ newline

/-- The message as it is sent. -/
def raw (message : MimeMessage) : Text :=
  joinLines (fieldLines (message.fields ++ [message.head.field])) ++ newline ++ newline ++ message.body

end MimeMessage

/-! ## Delimiters -/

section Delimiters

variable {boundary : Text}

theorem isPrefixOf_delimiter {other : Text} (apart : Apart boundary other) (tail : Text) :
    ("--".toList ++ boundary).isPrefixOf ("--".toList ++ other ++ tail) = false := by
  rw [← Bool.not_eq_true, List.isPrefixOf_iff_prefix, List.append_assoc, List.prefix_append_right_inj]
  intro begins
  rcases List.prefix_or_prefix_of_prefix begins (List.prefix_append other tail) with longer | shorter
  · exact apart.1 longer
  · exact apart.2 shorter

/-- A delimiter is one, and not the last. -/
theorem isPrefixOf_delimiter_self :
    ("--".toList ++ boundary ++ "--".toList).isPrefixOf ("--".toList ++ boundary) = false ∧
      ("--".toList ++ boundary).isPrefixOf ("--".toList ++ boundary) = true := by
  refine ⟨?_, List.isPrefixOf_iff_prefix.mpr (List.prefix_refl _)⟩
  rw [← Bool.not_eq_true, List.isPrefixOf_iff_prefix]
  intro begins
  have notLonger := begins.length_le
  simp only [List.length_append] at notLonger
  exact absurd notLonger (by simp)

/-- A line that no delimiter begins. -/
theorem isPrefixOf_line {line : Text} (noHyphen : line.head? ≠ some '-') :
    ("--".toList ++ boundary).isPrefixOf line = false := by
  cases line with
  | nil => rfl
  | cons head rest =>
    have different : ('-' == head) = false := by
      simpa using fun same => noHyphen (congrArg some same.symm)
    simp [List.isPrefixOf, different]

/-- The end of a part's delimiter is one itself. -/
theorem isPrefixOf_end {line : Text} (noDelimiter : ("--".toList ++ boundary).isPrefixOf line = false) :
    ("--".toList ++ boundary ++ "--".toList).isPrefixOf line = false := by
  rw [← Bool.not_eq_true, List.isPrefixOf_iff_prefix] at noDelimiter ⊢
  exact fun ends => noDelimiter ((List.prefix_append _ _).trans ends)

/-- Lines without a delimiter are read into the current part. -/
theorem mimePartsFrom_append {lines : List Text}
    (inside : ∀ line ∈ lines, ("--".toList ++ boundary).isPrefixOf line = false)
    (current : Text) (rest : List Text) :
    mimePartsFrom boundary true current (lines ++ rest) =
      mimePartsFrom boundary true (current ++ feedLines lines) rest := by
  induction lines generalizing current with
  | nil => simp [feedLines]
  | cons line later ih =>
    obtain ⟨first, inside⟩ := List.forall_mem_cons.mp inside
    rw [List.cons_append, mimePartsFrom, isPrefixOf_end first, first, if_neg (by decide),
      if_neg (by decide), if_pos rfl, ih inside, feedLines_cons]
    simp

end Delimiters

/-! ## What is written -/

theorem plain_of_isQuotable {char : Char} (quotable : isQuotable char = true) :
    char.toNat < 128 ∧ char ≠ '"' ∧ char ≠ '\r' ∧ char ≠ '\n' := by
  simp only [isQuotable, Bool.and_eq_true, decide_eq_true_eq] at quotable
  obtain ⟨⟨⟨low, high⟩, notQuote⟩, -⟩ := quotable
  refine ⟨by omega, notQuote, ?_, ?_⟩
  · rintro rfl
    exact absurd low (by decide)
  · rintro rfl
    exact absurd low (by decide)

theorem unbroken_of_quotable {text : Text} (quotable : text.all isQuotable = true) : Unbroken text := by
  rw [Unbroken.iff_forall]
  intro char mem
  exact (plain_of_isQuotable (List.all_eq_true.mp quotable char mem)).2.2

/-- A character of a media type is ASCII, no white space and no semicolon. -/
theorem plain_of_isMediaChar {char : Char} (isMedia : isMediaChar char = true) :
    char.toNat < 128 ∧ isWhitespace char = false ∧ char ≠ ';' := by
  have marks : ∀ mark ∈ "/-.+_".toList, mark.toNat < 128 := by decide
  have small : char.toNat < 128 := by
    have kind := isMedia
    rw [isMediaChar, Bool.or_eq_true, decide_eq_true_eq] at kind
    exact kind.elim ascii_of_isAlphanum (marks char)
  have facts := @of_ascii (fun char => isMediaChar char = true →
    isWhitespace char = false ∧ char ≠ ';') (by decide) char small
  exact ⟨small, facts isMedia⟩

theorem quotable_filenameText (name : Text) : (filenameText name).all isQuotable = true := by
  have encoded : ∀ char ∈ base64Text name, isQuotable char = true :=
    Base64.forall_mem_standard (by decide) (by decide) _
  unfold filenameText
  split
  next plain =>
    simp only [isPlainName, Bool.and_eq_true] at plain
    exact plain.1.1.2
  next =>
    have word := List.all_eq_true.mpr encoded
    simp only [wordTail, List.all_cons, List.all_append, word]
    decide

theorem unbroken_multipartType {subtype : String} (isSubtype : isFieldName subtype = true)
    {boundary : Text} (unbroken : Unbroken boundary) : Unbroken (multipartType subtype boundary) := by
  have plain : Unbroken subtype.toList :=
    Unbroken.of_solid fun char mem => (plain_of_mem_name isSubtype mem).2.1
  unfold multipartType
  simp only [Unbroken.append_iff]
  exact ⟨⟨⟨⟨by decide, plain⟩, by decide⟩, unbroken⟩, by decide⟩

theorem solid_field (head : Multipart) : ∀ field ∈ [head.field], isFieldName field.1 = true ∧ Unbroken field.2 := by
  intro field mem
  rw [List.mem_singleton.mp mem]
  exact ⟨(by decide : isFieldName "Content-Type" = true),
    unbroken_multipartType head.isSubtype (unbroken_of_quotable head.quotable)⟩

theorem solid_fields (leaf : Leaf) : ∀ field ∈ leaf.fields, isFieldName field.1 = true ∧ Unbroken field.2 := by
  have isType : isFieldName "Content-Type" = true := by decide
  have encoding : isFieldName "Content-Transfer-Encoding" = true ∧ Unbroken "base64".toList := by
    decide
  have text : ∀ subtype : Text, Unbroken subtype →
      ∀ field ∈ [("Content-Type", subtype), ("Content-Transfer-Encoding", "base64".toList)],
        isFieldName field.1 = true ∧ Unbroken field.2 := by
    intro subtype unbroken field mem
    simp only [List.mem_cons, List.not_mem_nil, or_false] at mem
    rcases mem with rfl | rfl
    · exact ⟨isType, unbroken⟩
    · exact encoding
  cases leaf with
  | plain content => exact text _ (by decide)
  | html content => exact text _ (by decide)
  | file name mediaType data =>
    have media : Unbroken mediaType.text := Unbroken.of_solid fun char mem =>
      (plain_of_isMediaChar (List.all_eq_true.mp mediaType.isMedia char mem)).2.1
    have written := unbroken_of_quotable (quotable_filenameText name)
    intro field mem
    simp only [Leaf.fields, List.mem_cons, List.not_mem_nil, or_false] at mem
    rcases mem with rfl | rfl | rfl
    · exact ⟨isType, media⟩
    · exact encoding
    · refine ⟨(by decide : isFieldName "Content-Disposition" = true), ?_⟩
      simp [written]

/-- The rows of a text are the text. -/
theorem flatten_chunks {width : Nat} (positive : 0 < width) (text : Text) : (chunks width text).flatten = text := by
  have rows : ∀ count : Nat, ((List.range count).map fun row =>
      (text.drop (row * width)).take width).flatten = text.take (count * width) := by
    intro count
    induction count with
    | zero => simp
    | succ count ih =>
      rw [List.range_succ, List.map_append, List.flatten_append, ih, Nat.succ_mul, List.take_add]
      simp
  have enough : text.length ≤ (text.length + width - 1) / width * width := by
    have division := Nat.div_add_mod (text.length + width - 1) width
    have remainder := Nat.mod_lt (text.length + width - 1) positive
    rw [Nat.mul_comm] at division
    omega
  rw [chunks, rows, List.take_of_length_le enough]

theorem mem_of_mem_chunks {width : Nat} (positive : 0 < width) {text row : Text} {char : Char}
    (isRow : row ∈ chunks width text) (inRow : char ∈ row) : char ∈ text := by
  rw [← flatten_chunks positive text]
  exact List.mem_flatten.mpr ⟨row, isRow, inRow⟩

/-- The alphabet of a body has no hyphen. -/
theorem hyphen_not_mem_base64 (bytes : List UInt8) : '-' ∉ (Base64.encodePadded Base64.standard bytes).toList := by
  intro mem
  rcases Base64.mem_encodePadded Base64.length_standard mem with digit | pad
  · exact absurd digit (by decide)
  · exact absurd pad (by decide)

/-- A row of a base64 text is one line, and no delimiter begins it. -/
theorem solid_chunks (bytes : List UInt8) : ∀ row ∈ chunks 76 (Base64.encodePadded Base64.standard bytes).toList,
      Unbroken row ∧ row.head? ≠ some '-' := by
  intro row isRow
  have inText {char : Char} (inRow : char ∈ row) := mem_of_mem_chunks (by decide) isRow inRow
  have unbroken := unbroken_base64 bytes
  exact ⟨⟨fun isReturn => unbroken.1 (inText isReturn), fun isFeed => unbroken.2 (inText isFeed)⟩,
    fun hyphen => hyphen_not_mem_base64 bytes (inText (List.mem_of_head? hyphen))⟩

/-- A line of a leaf is one line, and no delimiter begins it. -/
theorem solid_lines (leaf : Leaf) : ∀ line ∈ leaf.lines, Unbroken line ∧ line.head? ≠ some '-' := by
  intro line mem
  rcases List.mem_append.mp mem with isField | isBody
  · refine ⟨(solid_fieldLines (solid_fields leaf) line isField).2, ?_⟩
    obtain ⟨field, inFields, rfl⟩ := List.mem_map.mp isField
    have names : ∀ field ∈ leaf.fields, field.1.toList.head? = some 'C' := by
      cases leaf <;> simp [Leaf.fields]
    simp [headerLine, List.head?_append, names field inFields]
  · rcases List.mem_cons.mp isBody with rfl | isRow
    · exact ⟨Unbroken.nil, by decide⟩
    · exact solid_chunks leaf.bytes line isRow

/-! ## How lines are cut into parts -/

namespace Parts

variable {boundary : Text}

theorem unbroken_lines (unbroken : Unbroken boundary) (parts : Parts) :
    ∀ line ∈ parts.lines boundary, Unbroken line := by
  have hyphens : Unbroken "--".toList := by decide
  have delimiter : Unbroken ("--".toList ++ boundary) := Unbroken.append_iff.mpr ⟨hyphens, unbroken⟩
  induction parts generalizing boundary with
  | nil =>
    intro line mem
    rw [List.mem_singleton.mp mem]
    exact Unbroken.append_iff.mpr ⟨delimiter, hyphens⟩
  | leaf part rest ih =>
    refine List.forall_mem_cons.mpr ⟨delimiter, List.forall_mem_append.mpr ⟨?_, ?_⟩⟩
    · exact fun line mem => (solid_lines part line mem).1
    · exact ih unbroken delimiter
  | multi head inner rest innerHypothesis restHypothesis =>
    have inside := unbroken_of_quotable head.quotable
    refine List.forall_mem_cons.mpr ⟨delimiter, List.forall_mem_append.mpr
      ⟨List.forall_mem_append.mpr ⟨?_, List.forall_mem_cons.mpr ⟨Unbroken.nil, ?_⟩⟩, ?_⟩⟩
    · exact fun line mem => (solid_fieldLines (solid_field head) line mem).2
    · exact innerHypothesis inside (Unbroken.append_iff.mpr ⟨hyphens, inside⟩)
    · exact restHypothesis unbroken delimiter

/-- A delimiter of another boundary begins no line of the parts. -/
theorem isPrefixOf_lines {own : Text} {parts : Parts} (apart : Apart boundary own)
    (apartInside : ∀ other ∈ parts.boundaries, Apart boundary other) :
    ∀ line ∈ parts.lines own, ("--".toList ++ boundary).isPrefixOf line = false := by
  have delimiter := @isPrefixOf_delimiter boundary own apart []
  rw [List.append_nil] at delimiter
  induction parts generalizing own with
  | nil =>
    intro line mem
    rw [List.mem_singleton.mp mem]
    exact isPrefixOf_delimiter apart _
  | leaf part rest ih =>
    refine List.forall_mem_cons.mpr ⟨delimiter, List.forall_mem_append.mpr ⟨?_, ?_⟩⟩
    · exact fun line mem => isPrefixOf_line (solid_lines part line mem).2
    · exact ih apart apartInside delimiter
  | multi head inner rest innerHypothesis restHypothesis =>
    obtain ⟨apartHead, apartInside⟩ := List.forall_mem_cons.mp apartInside
    obtain ⟨apartInner, apartRest⟩ := List.forall_mem_append.mp apartInside
    have innerDelimiter := @isPrefixOf_delimiter boundary head.boundary apartHead []
    rw [List.append_nil] at innerDelimiter
    refine List.forall_mem_cons.mpr ⟨delimiter, List.forall_mem_append.mpr
      ⟨List.forall_mem_append.mpr ⟨?_, List.forall_mem_cons.mpr ⟨?_, ?_⟩⟩, ?_⟩⟩
    · intro line mem
      rw [List.mem_singleton.mp mem]
      exact isPrefixOf_line (by simp [Multipart.field, headerLine])
    · exact isPrefixOf_line (by decide)
    · exact innerHypothesis apartHead apartInner innerDelimiter
    · exact restHypothesis apart apartRest delimiter

end Parts

/-- Lines that begin with a header's name are a part as they are. -/
theorem finishPart_feedLines {name : Char} (visible : name ≠ '\r' ∧ name ≠ '\n') (rest : Text) :
    finishPart true (name :: rest) = [name :: rest] := by
  have notTrimmed : trimStartCrlf (name :: rest) = name :: rest := by
    unfold trimStartCrlf
    split
    next same => exact absurd (List.cons.inj same).1 visible.1
    next => rfl
  rw [finishPart, if_pos (by simp), notTrimmed, List.dropWhile_cons_of_neg (by simp [visible.2])]

/-- The lines of a part in parts without its headers. -/
theorem feedLines_fields {fields : List (String × Text)} {first : String × Text}
    (named : first.1 = "Content-Type") (body : List Text) :
    ∃ rest, feedLines (fieldLines (first :: fields) ++ body) = 'C' :: rest := by
  refine ⟨"ontent-Type".toList ++ ':' :: ' ' :: first.2 ++ '\n' :: feedLines (fieldLines fields ++ body), ?_⟩
  rw [fieldLines, List.map_cons, List.cons_append, feedLines_cons, headerLine, named]
  rfl

theorem finishPart_fields {fields : List (String × Text)} {first : String × Text}
    (named : first.1 = "Content-Type") (body : List Text) :
    finishPart true (feedLines (fieldLines (first :: fields) ++ body)) =
      [feedLines (fieldLines (first :: fields) ++ body)] := by
  obtain ⟨rest, isText⟩ := feedLines_fields named body
  rw [isText, finishPart_feedLines (by decide)]

theorem finishPart_leaf (leaf : Leaf) : finishPart true (feedLines leaf.lines) = [feedLines leaf.lines] := by
  cases leaf with
  | plain content => exact finishPart_fields rfl _
  | html content => exact finishPart_fields rfl _
  | file name mediaType data => exact finishPart_fields rfl _

/-- The lines of the parts are cut at their own boundary. -/
theorem mimePartsFrom_lines {boundary : Text} {parts : Parts}
    (apart : ∀ other ∈ parts.boundaries, Apart boundary other) (inPart : Bool) (current : Text) :
    mimePartsFrom boundary inPart current (parts.lines boundary) = finishPart inPart current ++ parts.texts := by
  obtain ⟨notEnd, isDelimiter⟩ := @isPrefixOf_delimiter_self boundary
  induction parts generalizing inPart current with
  | nil =>
    have isEnd : ("--".toList ++ boundary ++ "--".toList).isPrefixOf
        ("--".toList ++ boundary ++ "--".toList) = true :=
      List.isPrefixOf_iff_prefix.mpr (List.prefix_refl _)
    rw [Parts.lines, mimePartsFrom, isEnd, if_pos rfl, Parts.texts, List.append_nil]
  | leaf part rest ih =>
    have inside : ∀ line ∈ part.lines, ("--".toList ++ boundary).isPrefixOf line = false :=
      fun line mem => isPrefixOf_line (solid_lines part line mem).2
    rw [Parts.lines, mimePartsFrom, notEnd, isDelimiter, if_neg (by decide), if_pos rfl,
      mimePartsFrom_append inside, ih apart, List.nil_append, finishPart_leaf]
    rfl
  | multi head inner rest innerHypothesis restHypothesis =>
    obtain ⟨apartHead, apartInside⟩ := List.forall_mem_cons.mp apart
    obtain ⟨apartInner, apartRest⟩ := List.forall_mem_append.mp apartInside
    have inside : ∀ line ∈ Parts.multiLines head inner,
        ("--".toList ++ boundary).isPrefixOf line = false := by
      refine List.forall_mem_append.mpr ⟨?_, List.forall_mem_cons.mpr ⟨?_, ?_⟩⟩
      · intro line mem
        rw [List.mem_singleton.mp mem]
        exact isPrefixOf_line (by simp [Multipart.field, headerLine])
      · exact isPrefixOf_line (by decide)
      · exact Parts.isPrefixOf_lines apartHead apartInner
    rw [Parts.lines, mimePartsFrom, notEnd, isDelimiter, if_neg (by decide), if_pos rfl,
      ← Parts.multiLines, mimePartsFrom_append inside, restHypothesis apartRest, List.nil_append,
      Parts.multiLines, finishPart_fields rfl]
    rfl

/-! ## How a part is read -/

section Reading

variable (casing : Casing)

/-- What is read of the lines of a part: its headers and its body. -/
theorem splitHeadersBody_lines {head : List Text} (notEmpty : head ≠ [])
    (solid : ∀ line ∈ head, line ≠ [] ∧ Unbroken line) {body : List Text} (unbroken : ∀ line ∈ body, Unbroken line) :
    splitHeadersBody (feedLines (head ++ [] :: body)) = (joinFeeds head, feedLines body) := by
  have isText : feedLines (head ++ [] :: body) = feedLines head ++ '\n' :: feedLines body := by
    rw [feedLines_append, feedLines_cons, List.nil_append]
  have noReturn : '\r' ∉ feedLines (head ++ [] :: body) :=
    not_mem_feedLines (List.forall_mem_append.mpr
      ⟨fun line mem => (solid line mem).2, List.forall_mem_cons.mpr ⟨Unbroken.nil, unbroken⟩⟩)
  have isSection : headerSection (feedLines (head ++ [] :: body)) = joinFeeds head := by
    rw [headerSection, before?_eq_none noReturn, isText, before?_feedLines notEmpty solid]
    rfl
  have later : (feedLines (head ++ [] :: body)).drop (joinFeeds head).length =
      '\n' :: '\n' :: feedLines body := by
    rw [isText, feedLines_eq_joinFeeds notEmpty, List.append_assoc, List.drop_left]
    rfl
  rw [splitHeadersBody, isSection, later]
  simp [List.isPrefixOf]

theorem splitHeadersBody_feedLines {fields : List (String × Text)} (notEmpty : fields ≠ [])
    (solid : ∀ field ∈ fields, isFieldName field.1 = true ∧ Unbroken field.2) {body : List Text}
    (unbroken : ∀ line ∈ body, Unbroken line) : splitHeadersBody (feedLines (fieldLines fields ++ [] :: body)) =
      (joinFeeds (fieldLines fields), feedLines body) :=
  splitHeadersBody_lines (by simpa [fieldLines] using notEmpty) (solid_fieldLines solid) unbroken

theorem splitHeadersBody_leaf (leaf : Leaf) :
    splitHeadersBody (feedLines leaf.lines) = (joinFeeds (fieldLines leaf.fields),
      feedLines (chunks 76 (Base64.encodePadded Base64.standard leaf.bytes).toList)) := by
  have notEmpty : leaf.fields ≠ [] := by
    cases leaf <;> exact List.cons_ne_nil _ _
  exact splitHeadersBody_feedLines notEmpty (solid_fields leaf) fun line mem =>
    (solid_lines leaf line (List.mem_append_right _ (List.mem_cons_of_mem [] mem))).1

theorem parseHeaders_joinFeeds {fields : List (String × Text)}
    (solid : ∀ field ∈ fields, isFieldName field.1 = true ∧ Unbroken field.2) :
    parseHeaders casing (joinFeeds (fieldLines fields)) = readFields fields := by
  rw [parseHeaders, lines_joinFeeds (solid_fieldLines solid)]
  exact foldl_fieldLines casing (fun field mem => (solid field mem).1) ⟨[], [], []⟩

/-- The bytes of a body are read back from its rows. -/
theorem decodeBase64Lines_chunks (bytes : List UInt8) :
    decodeBase64Lines (feedLines (chunks 76 (Base64.encodePadded Base64.standard bytes).toList)) = some bytes := by
  have solid := solid_base64 bytes
  have rows := @flatten_chunks 76 (by decide) (Base64.encodePadded Base64.standard bytes).toList
  have feeds : ∀ lines : List Text, (∀ char ∈ lines.flatten, isWhitespace char = false) →
      (feedLines lines).filter (fun char => !isWhitespace char) = lines.flatten := by
    intro lines
    induction lines with
    | nil => exact fun _ => rfl
    | cons line rest ih =>
      intro solid
      rw [List.flatten_cons] at solid
      obtain ⟨first, later⟩ := List.forall_mem_append.mp solid
      have kept : line.filter (fun char => !isWhitespace char) = line :=
        List.filter_eq_self.mpr fun char mem => by simp [first char mem]
      have dropped : (!isWhitespace '\n') = false := by decide
      rw [feedLines_cons, List.filter_append, kept, List.filter_cons_of_neg (by simp [dropped]),
        ih later, List.flatten_cons]
  rw [decodeBase64Lines, feeds _ (rows.symm ▸ solid), rows]
  exact Base64.decodePadded_standard bytes

/-- What the loop makes of a part that is not in several parts. -/
def PartsRead.leaf (read : PartsRead) : Leaf → PartsRead
  | .plain content =>
    if read.htmlPart = none ∧ read.textPart = none then { read with textPart := some content }
    else read
  | .html content =>
    if read.htmlPart = none then { read with htmlPart := some content } else read
  | .file name mediaType data =>
    { read with
      attachments :=
        read.attachments ++ [⟨name, mediaType.text.map Char.toLower, data⟩] }

/-- What the loop makes of parts. -/
def Parts.read : Parts → PartsRead → PartsRead
  | nil, read => read
  | leaf part rest, read => rest.read (read.leaf part)
  | multi head inner rest, read =>
    rest.read (read.nested ((inner.read ⟨none, none, []⟩).finish (feedLines (inner.lines head.boundary))))

/-- The text of a leaf is decoded. -/
theorem decodeTransfer_chunks (content : Text) : decodeTransfer
      (feedLines (chunks 76 (Base64.encodePadded Base64.standard (Utf8.encode content)).toList))
      "base64".toList = content := by
  have isBase64 : contains "base64".toList "base64".toList = true := by decide
  rw [decodeTransfer, isBase64, if_pos rfl, decodeBase64Lines_chunks, Option.map_some,
    Option.getD_some, Utf8.decodeLossy_encode]

/-- The lines of a text are read as its text, under a Content-Type that is no file's. -/
theorem readPart_text {subtype : Text} {leaf : Leaf} {content : Text}
    (written : leaf.fields = [("Content-Type", subtype), ("Content-Transfer-Encoding", "base64".toList)] ∧
      leaf.bytes = Utf8.encode content)
    (ascii : ∀ char ∈ subtype, char.toNat < 128) (trimmed : trim subtype = subtype)
    (noParts : contains (subtype.map Char.toLower) "multipart/".toList = false)
    (noName : before? "name=".toList (subtype.map Char.toLower) = none)
    (extract : Text → Text → BodyRead) (read : PartsRead) :
    readPart casing extract read (feedLines leaf.lines) =
      if contains (subtype.map Char.toLower) "text/html".toList ∧ read.htmlPart = none then
        { read with htmlPart := some content }
      else if contains (subtype.map Char.toLower) "text/plain".toList ∧ read.htmlPart = none ∧
          read.textPart = none then
        { read with textPart := some content }
      else read := by
  have split := splitHeadersBody_leaf leaf
  have parsed := parseHeaders_joinFeeds casing (solid_fields leaf)
  have isType : getHeader (readFields leaf.fields) "content-type" = some subtype := by
    rw [written.1, getHeader_cons_self (by decide), trimmed]
  have isEncoding : getHeader (readFields leaf.fields) "content-transfer-encoding" =
      some "base64".toList := by
    rw [written.1, getHeader_cons_of_ne (by decide), getHeader_cons_self (by decide)]
    decide
  have noDisposition : getHeader (readFields leaf.fields) "content-disposition" = none := by
    rw [written.1, getHeader_cons_of_ne (by decide), getHeader_cons_of_ne (by decide)]
    rfl
  have lowerType := lowerHeader_eq casing isType ascii
  have lowerEncoding : lowerHeader casing (readFields leaf.fields) "content-transfer-encoding" =
      "base64".toList := lowerHeader_eq casing isEncoding (by decide)
  have needle : casing.toLowercase "name".toList ++ ['='] = "name=".toList := by
    rw [casing.toLowercase_ascii _ (by decide)]
    decide
  have noParameter : extractParam casing subtype "name" = none := by
    rw [extractParam, parameterValue, casing.toLowercase_ascii subtype ascii, needle, noName]
    rfl
  have noFile : isAttachment casing (readFields leaf.fields) = false := by
    have nothing : contains [] "attachment".toList = false := by decide
    rw [isAttachment, lowerHeader_none casing noDisposition, isType, Option.getD_some, noParameter, nothing]
    rfl
  have decoded := decodeTransfer_chunks content
  rw [← written.2] at decoded
  rw [readPart, split, parsed]
  simp only [lowerType, lowerEncoding, noParts, noFile, decoded, Bool.false_eq_true, if_false]

/-- The name of a file is read back from what is written for it. -/
theorem decodeHeaderValue_filenameText (name : Text) : decodeHeaderValue casing (filenameText name) = name := by
  unfold filenameText
  split
  next plain =>
    simp only [isPlainName, Bool.and_eq_true, decide_eq_true_eq, Bool.not_eq_true'] at plain
    rw [decodeHeaderValue_plain plain.2, plain.1.2]
  next => exact decodeHeaderValue_word casing name

theorem filenameText_ne_nil (name : Text) : filenameText name ≠ [] := by
  unfold filenameText
  split
  next plain =>
    simp only [isPlainName, Bool.and_eq_true, decide_eq_true_eq] at plain
    exact plain.1.1.1
  next => exact List.cons_ne_nil _ _

/-! ### Files -/

section File

variable (name : Text) (mediaType : MediaType) (data : List UInt8)

/-- The Content-Disposition of a file. -/
def disposition : Text :=
  "attachment; ".toList ++ "filename".toList ++ '=' :: '"' :: (filenameText name ++ ['"'])

theorem plain_of_mem_mediaType {char : Char} (mem : char ∈ mediaType.text) :
    char.toNat < 128 ∧ isWhitespace char = false ∧ char ≠ ';' :=
  plain_of_isMediaChar (List.all_eq_true.mp mediaType.isMedia char mem)

theorem plain_of_mem_filenameText {char : Char} (mem : char ∈ filenameText name) :
    char.toNat < 128 ∧ char ≠ '"' :=
  (plain_of_isQuotable (List.all_eq_true.mp (quotable_filenameText name) char mem)).imp_right And.left

theorem trim_mediaType : trim mediaType.text = mediaType.text :=
  trim_eq_self fun _ mem => (plain_of_mem_mediaType mediaType mem).2.1

theorem trim_disposition :
    trim ("attachment; filename=\"".toList ++ filenameText name ++ ['"']) = disposition name := by
  have enclosed := @trim_append_enclosed 'a' '"' (by decide) (by decide) []
    ("ttachment; filename=\"".toList ++ filenameText name)
  unfold disposition
  simpa [trimStart] using enclosed

theorem ascii_disposition : ∀ char ∈ disposition name, char.toNat < 128 :=
  List.forall_mem_append.mpr ⟨by decide, List.forall_mem_cons.mpr ⟨by decide,
    List.forall_mem_cons.mpr ⟨by decide, List.forall_mem_append.mpr
      ⟨fun _ mem => (plain_of_mem_filenameText name mem).1, by decide⟩⟩⟩⟩

/-- The headers of a file are read as they are meant. -/
theorem getHeader_file :
    let headers := readFields (Leaf.file name mediaType data).fields
    getHeader headers "content-type" = some mediaType.text ∧
      getHeader headers "content-transfer-encoding" = some "base64".toList ∧
      getHeader headers "content-disposition" = some (disposition name) := by
  refine ⟨?_, ?_, ?_⟩
  · rw [Leaf.fields, getHeader_cons_self (by decide), trim_mediaType]
  · rw [Leaf.fields, getHeader_cons_of_ne (by decide), getHeader_cons_self (by decide)]
    decide
  · rw [Leaf.fields, getHeader_cons_of_ne (by decide), getHeader_cons_of_ne (by decide),
      getHeader_cons_self (by decide), trim_disposition]

theorem extractParam_disposition :
    extractParam casing (disposition name) "filename" = some (filenameText name) := by
  have needle : casing.toLowercase "filename".toList ++ ['='] = "filename".toList ++ ['='] := by
    rw [casing.toLowercase_ascii _ (by decide)]
    decide
  rw [extractParam, needle]
  exact parameterValue_quoted casing (by decide) (by decide) (by decide)
    (fun _ mem => (plain_of_mem_filenameText name mem).1)
    (fun mem => (plain_of_mem_filenameText name mem).2 rfl) (filenameText_ne_nil name)

theorem isAttachment_file : isAttachment casing (readFields (Leaf.file name mediaType data).fields) = true := by
  obtain ⟨-, -, isDisposition⟩ := getHeader_file name mediaType data
  have begins : contains ((disposition name).map Char.toLower) "attachment".toList = true := by
    unfold disposition
    rw [contains_iff]
    exact ⟨[], "; filename=\"".toList ++ (filenameText name).map Char.toLower ++ ['"'], by simp⟩
  rw [isAttachment, lowerHeader_eq casing isDisposition (ascii_disposition name), begins, Bool.true_or]

theorem attachmentOf_file : attachmentOf casing (readFields (Leaf.file name mediaType data).fields)
        (feedLines (chunks 76 (Base64.encodePadded Base64.standard data).toList)) =
      ⟨name, mediaType.text.map Char.toLower, data⟩ := by
  obtain ⟨isType, isEncoding, isDisposition⟩ := getHeader_file name mediaType data
  have lowerEncoding : lowerHeader casing (readFields (Leaf.file name mediaType data).fields)
      "content-transfer-encoding" = "base64".toList := lowerHeader_eq casing isEncoding (by decide)
  have whole : mediaType.text.takeWhile (· ≠ ';') = mediaType.text :=
    List.takeWhile_eq_self_iff.mpr fun char mem => by
      simpa using (plain_of_mem_mediaType mediaType mem).2.2
  have lowerMedia := casing.toLowercase_ascii mediaType.text fun char mem =>
    (plain_of_mem_mediaType mediaType mem).1
  have notEmpty : mediaType.text.map Char.toLower ≠ [] := by simpa using mediaType.notEmpty
  have isBase64 : contains "base64".toList "base64".toList = true := by decide
  have isData : decodeAttachment (feedLines (chunks 76
      (Base64.encodePadded Base64.standard data).toList)) "base64".toList = data := by
    rw [decodeAttachment, isBase64, if_pos rfl, decodeBase64Lines_chunks]
    rfl
  rw [attachmentOf, isType, isDisposition, lowerEncoding]
  simp only [Option.getD_some, extractParam_disposition, Option.some_or, whole, trim_mediaType,
    lowerMedia, if_neg notEmpty, isData, decodeHeaderValue_filenameText]

/-- The lines of a file are read as the file. -/
theorem readPart_file (extract : Text → Text → BodyRead) (read : PartsRead) :
    readPart casing extract read (feedLines (Leaf.file name mediaType data).lines) =
      read.leaf (.file name mediaType data) := by
  have split := splitHeadersBody_leaf (.file name mediaType data)
  have parsed := parseHeaders_joinFeeds casing (solid_fields (.file name mediaType data))
  have lowerType := lowerHeader_eq casing (getHeader_file name mediaType data).1
    fun char mem => (plain_of_mem_mediaType mediaType mem).1
  have bytes : (Leaf.file name mediaType data).bytes = data := rfl
  rw [readPart, split, parsed]
  simp only [lowerType, mediaType.notMultipart, isAttachment_file, bytes, attachmentOf_file,
    Bool.false_eq_true, if_false, if_true]
  rfl

end File

theorem readPart_leaf (leaf : Leaf) (extract : Text → Text → BodyRead) (read : PartsRead) :
    readPart casing extract read (feedLines leaf.lines) = read.leaf leaf := by
  cases leaf with
  | plain content =>
    have text := @readPart_text casing "text/plain; charset=UTF-8".toList (.plain content) content
      ⟨rfl, rfl⟩ (by decide) (by decide) (by decide) (by decide) extract read
    have noHtml : contains ("text/plain; charset=UTF-8".toList.map Char.toLower)
        "text/html".toList = false := by decide
    have isPlain : contains ("text/plain; charset=UTF-8".toList.map Char.toLower)
        "text/plain".toList = true := by decide
    rw [text, noHtml, isPlain]
    simp [PartsRead.leaf]
  | html content =>
    have text := @readPart_text casing "text/html; charset=UTF-8".toList (.html content) content
      ⟨rfl, rfl⟩ (by decide) (by decide) (by decide) (by decide) extract read
    have isHtml : contains ("text/html; charset=UTF-8".toList.map Char.toLower)
        "text/html".toList = true := by decide
    have noPlain : contains ("text/html; charset=UTF-8".toList.map Char.toLower)
        "text/plain".toList = false := by decide
    rw [text, isHtml, noPlain]
    simp [PartsRead.leaf]
  | file name mediaType data => exact readPart_file casing name mediaType data extract read

/-! ### Parts in several parts -/

section Multipart

variable (head : Multipart)

theorem ascii_multipartType : ∀ char ∈ multipartType head.subtype head.boundary, char.toNat < 128 := by
  have shows : ∀ char ∈ head.boundary, char.toNat < 128 := fun char mem =>
    (plain_of_isQuotable (List.all_eq_true.mp head.quotable char mem)).1
  have letters : ∀ char ∈ head.subtype.toList, char.toNat < 128 := fun char mem =>
    (plain_of_mem_name head.isSubtype mem).1
  unfold multipartType
  simp only [List.forall_mem_append]
  exact ⟨⟨⟨⟨by decide, letters⟩, by decide⟩, shows⟩, by decide⟩

theorem contains_multipartType :
    contains ((multipartType head.subtype head.boundary).map Char.toLower) "multipart/".toList =
      true := by
  have lower : "multipart/".toList.map Char.toLower = "multipart/".toList := by decide
  unfold multipartType
  rw [contains_iff, List.map_append, List.map_append, List.map_append, List.map_append, lower]
  simp only [List.append_assoc]
  exact (List.prefix_append _ _).isInfix

theorem trim_multipartType :
    trim (multipartType head.subtype head.boundary) = multipartType head.subtype head.boundary := by
  have enclosed := @trim_append_enclosed 'm' '"' (by decide) (by decide) []
    ("ultipart/".toList ++ head.subtype.toList ++ "; boundary=\"".toList ++ head.boundary)
  exact enclosed

theorem getHeader_field : getHeader (readFields [head.field]) "content-type" =
      some (multipartType head.subtype head.boundary) := by
  rw [Multipart.field, getHeader_cons_self (by decide), trim_multipartType]

end Multipart

/-- The boundary of a part in several parts is read back from its Content-Type. -/
theorem extractBoundary_multipartType {subtype : String} (isSubtype : isFieldName subtype = true)
    {boundary : Text} (notEmpty : boundary ≠ []) (quotable : boundary.all isQuotable = true) :
    extractBoundary casing (multipartType subtype boundary) = some boundary := by
  have shows : ∀ char ∈ boundary, char.toNat < 128 ∧ char ≠ '"' := fun char mem =>
    let facts := plain_of_isQuotable (List.all_eq_true.mp quotable char mem)
    ⟨facts.1, facts.2.1⟩
  have ascii : ∀ char ∈ "multipart/".toList ++ subtype.toList ++ "; ".toList, char.toNat < 128 :=
    List.forall_mem_append.mpr ⟨List.forall_mem_append.mpr
      ⟨by decide, fun char mem => (plain_of_mem_name isSubtype mem).1⟩, by decide⟩
  have noEquals : '=' ∉ "multipart/".toList ++ subtype.toList ++ "; ".toList := by
    have notInName : '=' ∉ subtype.toList := fun mem =>
      ((solid_of_isFieldName isSubtype).2 '=' mem).elim (fun letter => absurd letter (by decide))
        fun same => absurd same (by decide)
    have notBefore : '=' ∉ "multipart/".toList := by decide
    have notBehind : '=' ∉ "; ".toList := by decide
    simp only [List.mem_append, not_or]
    exact ⟨⟨notBefore, notInName⟩, notBehind⟩
  have isHeader : multipartType subtype boundary = "multipart/".toList ++ subtype.toList ++ "; ".toList ++
      "boundary".toList ++ '=' :: '"' :: (boundary ++ ['"']) := by
    have behind : "; boundary=\"".toList = "; ".toList ++ ("boundary".toList ++ ['=', '"']) := by decide
    unfold multipartType
    rw [behind]
    simp only [List.append_assoc, List.cons_append, List.nil_append]
  have needle : "boundary=".toList = "boundary".toList ++ ['='] := by decide
  rw [extractBoundary, isHeader, needle]
  exact parameterValue_quoted casing ascii noEquals (by decide)
    (fun char mem => (shows char mem).1) (fun mem => (shows '"' mem).2 rfl) notEmpty

/-- The lines of a part in several parts are read as what is found in its body. -/
theorem readPart_multi (head : Multipart) (inner : Parts) (extract : Text → Text → BodyRead) (read : PartsRead) :
    readPart casing extract read (feedLines (Parts.multiLines head inner)) =
      read.nested (extract (feedLines (inner.lines head.boundary)) (multipartType head.subtype head.boundary)) := by
  have solid := solid_field head
  have unbroken := Parts.unbroken_lines (unbroken_of_quotable head.quotable) inner
  have split := @splitHeadersBody_feedLines [head.field] (List.cons_ne_nil _ _) solid _ unbroken
  have parsed := parseHeaders_joinFeeds casing solid
  have isType := getHeader_field head
  have lowerType := lowerHeader_eq casing isType (ascii_multipartType head)
  have hasParts := contains_multipartType head
  rw [readPart, Parts.multiLines, split, parsed, isType]
  simp only [lowerType, hasParts, if_true, Option.getD_some]

/-! ## How a message is read -/

theorem splitMimeParts_feedLines {boundary : Text} (unbroken : Unbroken boundary) {parts : Parts}
    (apart : ∀ other ∈ parts.boundaries, Apart boundary other) :
    splitMimeParts (feedLines (parts.lines boundary)) boundary = parts.texts := by
  rw [splitMimeParts, lines_feedLines (parts.unbroken_lines unbroken), mimePartsFrom_lines apart]
  rfl

theorem extractMultipart_succ {fuel : Nat} {body : Text} (head : Multipart) {inner : Parts}
    (cut : splitMimeParts body head.boundary = inner.texts)
    (reads : inner.texts.foldl (readPart casing (extractMultipart casing fuel)) ⟨none, none, []⟩ =
      inner.read ⟨none, none, []⟩) :
    extractMultipart casing (fuel + 1) body (multipartType head.subtype head.boundary) =
      (inner.read ⟨none, none, []⟩).finish body := by
  rw [extractMultipart, extractBoundary_multipartType casing head.isSubtype head.hasBoundary head.quotable]
  simp only [cut, reads]

/-- The texts of parts are read as the parts, with fuel for the longest of them. -/
theorem foldl_texts {parts : Parts} (apart : parts.boundaries.Pairwise Apart) {fuel : Nat}
    (enough : ∀ text ∈ parts.texts, text.length ≤ fuel) (read : PartsRead) :
    parts.texts.foldl (readPart casing (extractMultipart casing fuel)) read = parts.read read := by
  induction parts generalizing fuel read with
  | nil => rfl
  | leaf part rest ih =>
    obtain ⟨-, enough⟩ := List.forall_mem_cons.mp enough
    rw [Parts.texts, List.foldl_cons, readPart_leaf, ih apart enough, Parts.read]
  | multi head inner rest innerHypothesis restHypothesis =>
    obtain ⟨short, enoughRest⟩ := List.forall_mem_cons.mp enough
    obtain ⟨apartHead, apartInside⟩ := List.pairwise_cons.mp apart
    obtain ⟨apartInner, apartRest, -⟩ := List.pairwise_append.mp apartInside
    have cut := @splitMimeParts_feedLines head.boundary (unbroken_of_quotable head.quotable) inner
      fun other mem => apartHead other (List.mem_append_left _ mem)
    have bodyShorter : (feedLines (inner.lines head.boundary)).length <
        (feedLines (Parts.multiLines head inner)).length := by
      rw [Parts.multiLines, feedLines_append, feedLines_cons, List.length_append,
        List.length_append, List.length_cons]
      omega
    obtain ⟨spare, rfl⟩ := Nat.exists_eq_add_one_of_ne_zero (by omega : fuel ≠ 0)
    have enoughInner : ∀ text ∈ inner.texts, text.length ≤ spare := by
      intro text mem
      have shorter := length_lt_of_mem_splitMimeParts (cut ▸ mem)
      omega
    have found := extractMultipart_succ casing head cut
      (innerHypothesis apartInner enoughInner ⟨none, none, []⟩)
    rw [Parts.texts, List.foldl_cons, readPart_multi, found, restHypothesis apartRest enoughRest, Parts.read]

/-- What is found in a message is what the loop makes of its tree. -/
theorem parseBody_raw (message : MimeMessage) :
    parseBody casing message.raw = (message.parts.read ⟨none, none, []⟩).finish message.body := by
  have solid : ∀ field ∈ message.fields ++ [message.head.field],
      isFieldName field.1 = true ∧ Unbroken field.2 :=
    List.forall_mem_append.mpr ⟨message.solid, solid_field message.head⟩
  have unbroken := unbroken_of_quotable message.head.quotable
  have solidLines := solid_fieldLines solid
  obtain ⟨apart, apartInside⟩ := List.pairwise_cons.mp message.apart
  have split : splitHeadersBody message.raw =
      (joinLines (fieldLines (message.fields ++ [message.head.field])), message.body) :=
    splitHeadersBody_joinLines solidLines message.body
  have parsed : parseHeaders casing (joinLines (fieldLines (message.fields ++ [message.head.field]))) =
        readFields (message.fields ++ [message.head.field]) := by
    rw [parseHeaders, lines_joinLines solidLines]
    exact foldl_fieldLines casing (fun field mem => (solid field mem).1) ⟨[], [], []⟩
  have isType : getHeader (readFields (message.fields ++ [message.head.field])) "content-type" =
      some (multipartType message.head.subtype message.head.boundary) := by
    rw [getHeader_append message.untyped, getHeader_field]
  have cut : splitMimeParts message.body message.head.boundary = message.parts.texts := by
    have lines := lines_flatMap_crlf (message.parts.unbroken_lines unbroken)
    rw [splitMimeParts, MimeMessage.body, newline, lines, mimePartsFrom_lines apart]
    rfl
  have enough : ∀ text ∈ message.parts.texts, text.length ≤ message.body.length :=
    fun text mem => Nat.le_of_lt (length_lt_of_mem_splitMimeParts (cut ▸ mem))
  have found := extractMultipart_succ casing message.head cut
    (foldl_texts casing apartInside enough ⟨none, none, []⟩)
  have lower := casing.toLowercase_ascii _ (ascii_multipartType message.head)
  have hasParts := contains_multipartType message.head
  rw [parseBody, split, parsed, isType]
  simp only [Option.getD_some, lower, hasParts, if_true]
  exact found

end Reading

end TutaBridge.Mail
