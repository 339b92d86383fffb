import TutaBridge.Mail.MailParts

/-!
# The fields that lines open

`parse_headers` reads a field from every line with a name before a colon, whoever wrote the line.
A text with line breaks in the value of a field opens fields of its own this way, and the head it
stands in ends at the first empty line in it.
-/

namespace TutaBridge.Mail

open TutaBridge.Std TutaBridge.Std.Text

variable {fields : List (String × Text)} {field : String × Text}

/-- The name of the field that a line of a head opens. -/
def fieldName? (line : Text) : Option Text :=
  if line.head? = some ' ' ∨ line.head? = some '\t' then none
  else ((splitOnce ':' line).map Prod.fst).bind fun name =>
    if trim name = [] then none else some (trim name)

/-- The lines that a field is written in. -/
def headRows (field : String × Text) : List Text :=
  Text.lines (headerLine field.1 field.2 ++ newline)

/-! ## Lines -/

theorem stripReturn_sublist (line : Text) : (stripReturn line).Sublist line := by
  unfold stripReturn
  split
  · exact List.dropLast_sublist line
  · exact List.Sublist.refl line

/-- No line has a line feed. -/
theorem noFeed_of_mem_lines {text line : Text} (mem : line ∈ Text.lines text) : '\n' ∉ line := by
  have reads : ∀ current text : Text, '\n' ∉ current → ∀ line ∈ linesFrom current text, '\n' ∉ line := by
    intro current text
    induction text generalizing current with
    | nil =>
      intro noFeed line inLines
      rw [linesFrom] at inLines
      split at inLines
      · cases inLines
      · rwa [List.mem_singleton.mp inLines]
    | cons next rest ih =>
      intro noFeed line inLines
      rw [linesFrom] at inLines
      split at inLines
      · rcases List.mem_cons.mp inLines with rfl | later
        · exact fun inLine => noFeed ((stripReturn_sublist current).subset inLine)
        · exact ih [] List.not_mem_nil line later
      next notFeed =>
        refine ih (current ++ [next]) ?_ line inLines
        simpa [Ne.symm notFeed] using noFeed
  exact reads [] text List.not_mem_nil line mem

/-- What ends a text before its line break ends its last line. -/
theorem exists_lines_concat {last : Char} (visible : last ≠ '\r' ∧ last ≠ '\n') (text : Text) :
    ∃ front line, Text.lines (text ++ last :: newline) = front ++ [line ++ [last]] := by
  have reads : ∀ current text : Text, ∃ front line,
      linesFrom current (text ++ last :: newline) = front ++ [line ++ [last]] := by
    intro current text
    induction text generalizing current with
    | nil =>
      have isReturn : (current ++ [last] ++ ['\r']).getLast? = some '\r' := List.getLast?_concat
      refine ⟨[], current, ?_⟩
      rw [newline, List.nil_append, linesFrom, if_neg visible.2, linesFrom, if_neg (by decide),
        linesFrom, if_pos rfl, stripReturn, if_pos isReturn, List.dropLast_concat]
      rfl
    | cons next rest ih =>
      rw [List.cons_append, linesFrom]
      split
      · obtain ⟨front, line, isLines⟩ := ih []
        exact ⟨stripReturn current :: front, line, by rw [isLines, List.cons_append]⟩
      · exact ih (current ++ [next])
  exact reads [] text

theorem joinFeeds_concat (lines : List Text) (last : Text) :
    joinFeeds (lines ++ [last]) = feedLines lines ++ last := by
  induction lines with
  | nil => simp [joinFeeds, feedLines]
  | cons line rest ih =>
    obtain ⟨next, later, isRest⟩ := List.exists_cons_of_ne_nil (List.concat_ne_nil last rest)
    rw [joinFeeds] at ih ⊢
    rw [List.cons_append, isRest, List.intercalate_cons_cons, ← isRest, ih, feedLines_cons]
    simp

/-- Lines that are joined are read back, but for a carriage return at the end of a line. -/
theorem lines_joinFeeds_concat {lines : List Text} {line : Text} {last : Char}
    (visible : last ≠ '\r' ∧ last ≠ '\n') (noFeed : ∀ line ∈ lines, '\n' ∉ line) (lastNoFeed : '\n' ∉ line) :
    Text.lines (joinFeeds (lines ++ [line ++ [last]])) = (lines ++ [line ++ [last]]).map stripReturn := by
  have kept : stripReturn (line ++ [last]) = line ++ [last] := by
    rw [stripReturn, List.getLast?_concat, if_neg fun same => visible.1 (Option.some.inj same)]
  induction lines with
  | nil =>
    have read := @linesFrom_append (line ++ [last]) [] (by simpa [Ne.symm visible.2] using lastNoFeed) []
    rw [List.append_nil, List.nil_append, linesFrom, if_neg (List.concat_ne_nil last line)] at read
    rw [List.nil_append, List.map_singleton, kept, joinFeeds, List.intercalate_singleton]
    exact read
  | cons first rest ih =>
    obtain ⟨firstNoFeed, noFeed⟩ := List.forall_mem_cons.mp noFeed
    have later := ih noFeed
    rw [joinFeeds_concat] at later ⊢
    rw [feedLines_cons, List.append_assoc, List.cons_append, Text.lines, linesFrom_append [] firstNoFeed,
      linesFrom, if_pos rfl, List.nil_append, List.cons_append, List.map_cons]
    exact congrArg (stripReturn first :: ·) later

theorem splitOnce_concat {separator other : Char} (different : other ≠ separator) (text : Text) :
    (splitOnce separator (text ++ [other])).map Prod.fst = (splitOnce separator text).map Prod.fst := by
  induction text with
  | nil => simp [splitOnce, different]
  | cons head rest ih =>
    rw [List.cons_append, splitOnce, splitOnce]
    split
    · rfl
    · have later := congrArg (Option.map (head :: ·)) ih
      rw [Option.map_map, Option.map_map] at later ⊢
      exact later

theorem fieldName?_stripReturn (line : Text) : fieldName? (stripReturn line) = fieldName? line := by
  unfold stripReturn
  split
  next isReturn =>
    obtain ⟨front, rfl⟩ := List.getLast?_eq_some_iff.mp isReturn
    rw [List.dropLast_concat]
    cases front with
    | nil => decide
    | cons head rest =>
      have sameName := @splitOnce_concat ':' '\r' (by decide) (head :: rest)
      rw [fieldName?, fieldName?, sameName, List.cons_append, List.head?_cons, List.head?_cons]
  next => rfl

/-! ## What a line opens -/

theorem fieldName?_headerLine {name : String} (isName : isFieldName name = true) (row : Text) :
    fieldName? (headerLine name row) = some name.toList := by
  obtain ⟨notEmpty, -⟩ := solid_of_isFieldName isName
  have plain := fun char => @plain_of_mem_name name isName char
  have noColon : ':' ∉ name.toList := fun mem => (plain ':' mem).2.2 rfl
  have trimmed : trim name.toList = name.toList :=
    trim_eq_self fun char mem => (plain char mem).2.1
  obtain ⟨head, rest, isText⟩ := List.exists_cons_of_ne_nil notEmpty
  have visible : isWhitespace head = false := (plain head (isText ▸ List.mem_cons_self)).2.1
  have noFold : ¬ ((headerLine name row).head? = some ' ' ∨ (headerLine name row).head? = some '\t') := by
    rw [headerLine, isText]
    rintro (blank | tab)
    · exact absurd (Option.some.inj blank ▸ visible) (by decide)
    · exact absurd (Option.some.inj tab ▸ visible) (by decide)
  rw [fieldName?, if_neg noFold, headerLine, splitOnce_append noColon, Option.map_some, Option.bind_some,
    trimmed, if_neg notEmpty]

section Opening

variable (casing : Casing)

/-- A field that a line opens is read behind those before it. -/
theorem finish_opening {line name : Text} (opens : fieldName? line = some name) (reader : HeaderReader) :
    ∃ value, (reader.line casing line).finish casing = reader.finish casing ++ [(casing.toLowercase name, value)] := by
  unfold fieldName? at opens
  split at opens
  next => cases opens
  next noFold =>
    obtain ⟨before, isBefore, isName⟩ := Option.bind_eq_some_iff.mp opens
    obtain ⟨⟨first, value⟩, isSplit, rfl⟩ := Option.map_eq_some_iff.mp isBefore
    split at isName
    next => cases isName
    next notEmpty =>
      cases isName
      refine ⟨trim value, ?_⟩
      rw [HeaderReader.line, if_neg noFold, isSplit]
      exact if_neg notEmpty

/-- A line that opens no field is part of the last value, or nothing. -/
theorem finish_unopened {line : Text} (unopened : fieldName? line = none) (reader : HeaderReader) :
    (reader.line casing line).finish casing = reader.finish casing ∨
      ∃ front name before after, reader.finish casing = front ++ [(name, before)] ∧
        (reader.line casing line).finish casing = front ++ [(name, after)] := by
  unfold fieldName? at unopened
  rw [HeaderReader.line]
  split at unopened
  next isFold =>
    rw [if_pos isFold]
    by_cases noName : reader.currentName = []
    · exact .inl (by rw [HeaderReader.finish, HeaderReader.finish, if_pos noName, if_pos noName])
    · refine .inr ⟨reader.headers, casing.toLowercase reader.currentName, trim reader.currentValue, _,
        if_neg noName, if_neg noName⟩
  next noFold =>
    rw [if_neg noFold]
    cases isSplit : splitOnce ':' line with
    | none => exact .inl rfl
    | some field =>
      obtain ⟨name, value⟩ := field
      rw [isSplit, Option.map_some, Option.bind_some] at unopened
      split at unopened
      next isEmpty => exact .inl (if_pos isEmpty)
      next => cases unopened

/-- The fields that are read are those that the lines open. -/
theorem names_foldl_line (lines : List Text) (reader : HeaderReader) :
    ((lines.foldl (HeaderReader.line casing) reader).finish casing).map Prod.fst =
      (reader.finish casing).map Prod.fst ++ (lines.filterMap fieldName?).map casing.toLowercase := by
  induction lines generalizing reader with
  | nil => simp
  | cons line rest ih =>
    rw [List.foldl_cons, ih]
    cases opens : fieldName? line with
    | none =>
      rw [List.filterMap_cons_none opens]
      rcases finish_unopened casing opens reader with same | ⟨front, name, before, after, one, two⟩
      · rw [same]
      · rw [one, two, List.map_append, List.map_append]
        rfl
    | some name =>
      obtain ⟨value, isRead⟩ := finish_opening casing opens reader
      rw [List.filterMap_cons_some opens, isRead, List.map_append, List.append_assoc]
      rfl

/-- A field and lines that open none are read as one field. -/
theorem finish_foldl_opening {line name : Text} (opens : fieldName? line = some name) {lines : List Text}
    (unopened : ∀ line ∈ lines, fieldName? line = none) (reader : HeaderReader) :
    ∃ value, ((line :: lines).foldl (HeaderReader.line casing) reader).finish casing =
      reader.finish casing ++ [(casing.toLowercase name, value)] := by
  have later : ∀ (lines : List Text) (reader : HeaderReader) (front : List (Text × Text))
      (header : Text × Text), (∀ line ∈ lines, fieldName? line = none) →
      reader.finish casing = front ++ [header] →
      ∃ value, (lines.foldl (HeaderReader.line casing) reader).finish casing = front ++ [(header.1, value)] := by
    intro lines
    induction lines with
    | nil => exact fun reader front header _ isRead => ⟨header.2, isRead⟩
    | cons line rest ih =>
      intro reader front header unopened isRead
      obtain ⟨first, unopened⟩ := List.forall_mem_cons.mp unopened
      rw [List.foldl_cons]
      rcases finish_unopened casing first reader with same | ⟨before, name, old, new, one, two⟩
      · exact ih _ front header unopened (same.trans isRead)
      · obtain ⟨rfl, isHeader⟩ := List.append_inj' (one.symm.trans isRead) rfl
        obtain ⟨value, isValue⟩ := ih _ before (name, new) unopened two
        exact ⟨value, by rw [isValue, ← List.singleton_inj.mp isHeader]⟩
  obtain ⟨value, isRead⟩ := finish_opening casing opens reader
  exact later lines _ _ _ unopened isRead

end Opening

/-! ## Fields and their lines -/

/-- The lines of a head are those of its fields. -/
theorem lines_flatMap_headerLine (fields : List (String × Text)) :
    Text.lines ((fieldLines fields).flatMap fun line => line ++ newline) = fields.flatMap headRows := by
  induction fields with
  | nil => rfl
  | cons field rest ih =>
    rw [fieldLines, List.map_cons, List.flatMap_cons, lines_append_newline, ← fieldLines,
      ih, List.flatMap_cons, headRows]

/-- A field's first line is the one with its name. -/
theorem exists_headRows (isName : isFieldName field.1 = true) :
    ∃ row later, headRows field = headerLine field.1 row :: later := by
  obtain ⟨notEmpty, -⟩ := solid_of_isFieldName isName
  have unbroken : Unbroken (field.1.toList ++ [':', ' ']) := Unbroken.append_iff.mpr
    ⟨Unbroken.of_solid fun char mem => (plain_of_mem_name isName mem).2.1, by decide⟩
  obtain ⟨row, later, isLines⟩ := exists_lines_append (by simp) unbroken (field.2 ++ newline)
  refine ⟨row, later, ?_⟩
  rw [headRows, headerLine, headerLine]
  simpa using isLines

/-- A field on one line. -/
theorem headRows_unbroken (isName : isFieldName field.1 = true)
    (unbroken : Unbroken field.2) : headRows field = [headerLine field.1 field.2] := by
  have name : Unbroken field.1.toList :=
    Unbroken.of_solid fun char mem => (plain_of_mem_name isName mem).2.1
  have line : Unbroken (headerLine field.1 field.2) := by simp [headerLine, name, unbroken]
  exact lines_line_crlf line []

theorem headRows_concat (name : String) (value : Text) (mark : Char) :
    headRows (name, value ++ [mark]) = Text.lines (headerLine name value ++ mark :: newline) := by
  simp [headRows, headerLine]

section Rows

variable (casing : Casing)

/-- The fields that are read of the lines of fields. -/
def readRows (fields : List (String × Text)) : List (Text × Text) :=
  ((fields.flatMap fun field => (headRows field).map stripReturn).foldl (HeaderReader.line casing)
    ⟨[], [], []⟩).finish casing

/-- The names that are read are those of the fields, and of every other line that opens one. -/
theorem names_readRows (named : ∀ field ∈ fields, isFieldName field.1 = true) :
    (readRows casing fields).map Prod.fst = (fields.flatMap fun field => field.1.toList ::
      (headRows field).tail.filterMap fieldName?).map casing.toLowercase := by
  have opened : ∀ field ∈ fields, ((headRows field).map stripReturn).filterMap fieldName? =
      field.1.toList :: (headRows field).tail.filterMap fieldName? := by
    intro field mem
    obtain ⟨row, later, isRows⟩ := exists_headRows (named field mem)
    have same : fieldName? ∘ stripReturn = fieldName? := funext fieldName?_stripReturn
    rw [List.filterMap_map, same, isRows,
      List.filterMap_cons_some (fieldName?_headerLine (named field mem) row), List.tail_cons]
  rw [readRows, names_foldl_line, List.filterMap_flatMap, List.flatMap_congr opened]
  rfl

/-- The fields are the ones that are meant exactly where no other line opens one. -/
theorem names_readRows_iff (named : ∀ field ∈ fields, isFieldName field.1 = true) :
    (readRows casing fields).map Prod.fst = fields.map (fun field => casing.toLowercase field.1.toList) ↔
      ∀ field ∈ fields, ∀ line ∈ (headRows field).tail, fieldName? line = none := by
  have counts : ∀ fields : List (String × Text),
      (fields.flatMap fun field => field.1.toList :: (headRows field).tail.filterMap fieldName?).length =
        fields.length + (fields.flatMap fun field => (headRows field).tail.filterMap fieldName?).length := by
    intro fields
    induction fields with
    | nil => rfl
    | cons field rest ih =>
      simp only [List.flatMap_cons, List.length_append, List.length_cons, ih]
      omega
  rw [names_readRows casing named]
  constructor
  · intro same field mem
    have lengths := congrArg List.length same
    rw [List.length_map, List.length_map, counts] at lengths
    have noOther : (fields.flatMap fun field => (headRows field).tail.filterMap fieldName?) = [] :=
      List.length_eq_zero_iff.mp (by omega)
    exact List.filterMap_eq_nil_iff.mp (List.flatMap_eq_nil_iff.mp noOther field mem)
  · intro opensNothing
    have single : ∀ field ∈ fields,
        (field.1.toList :: (headRows field).tail.filterMap fieldName?) = [field.1.toList] :=
      fun field mem => by rw [List.filterMap_eq_nil_iff.mpr (opensNothing field mem)]
    rw [List.flatMap_congr single, ← List.map_eq_flatMap, List.map_map]
    rfl

/-- Where no other line opens a field, the lines of a field are read as one. -/
theorem finish_foldl_headRows (isName : isFieldName field.1 = true)
    (opensNothing : ∀ line ∈ (headRows field).tail, fieldName? line = none) (reader : HeaderReader) :
    ∃ value, (((headRows field).map stripReturn).foldl (HeaderReader.line casing) reader).finish casing =
      reader.finish casing ++ [(field.1.toList.map Char.toLower, value)] := by
  have lower : casing.toLowercase field.1.toList = field.1.toList.map Char.toLower :=
    casing.toLowercase_ascii _ fun char mem => (plain_of_mem_name isName mem).1
  obtain ⟨row, later, isRows⟩ := exists_headRows isName
  have opens : fieldName? (stripReturn (headerLine field.1 row)) = some field.1.toList :=
    (fieldName?_stripReturn _).trans (fieldName?_headerLine isName row)
  have unopened : ∀ line ∈ later.map stripReturn, fieldName? line = none := by
    intro line isLine
    obtain ⟨line, inLater, rfl⟩ := List.mem_map.mp isLine
    rw [fieldName?_stripReturn]
    exact opensNothing line (by rwa [isRows])
  obtain ⟨value, isRead⟩ := finish_foldl_opening casing opens unopened reader
  exact ⟨value, by rw [isRows, List.map_cons, isRead, lower]⟩

theorem finish_foldl_rows (named : ∀ field ∈ fields, isFieldName field.1 = true)
    (opensNothing : ∀ field ∈ fields, ∀ line ∈ (headRows field).tail, fieldName? line = none)
    (reader : HeaderReader) :
    ∃ headers, ((fields.flatMap fun field => (headRows field).map stripReturn).foldl
        (HeaderReader.line casing) reader).finish casing = reader.finish casing ++ headers ∧
      headers.map Prod.fst = fields.map fun field => field.1.toList.map Char.toLower := by
  induction fields generalizing reader with
  | nil => exact ⟨[], (List.append_nil _).symm, rfl⟩
  | cons field rest ih =>
    obtain ⟨isName, named⟩ := List.forall_mem_cons.mp named
    obtain ⟨firstNothing, opensNothing⟩ := List.forall_mem_cons.mp opensNothing
    obtain ⟨value, isRead⟩ := finish_foldl_headRows casing isName firstNothing reader
    obtain ⟨headers, areRead, names⟩ := ih named opensNothing
      (((headRows field).map stripReturn).foldl (HeaderReader.line casing) reader)
    refine ⟨(field.1.toList.map Char.toLower, value) :: headers, ?_, ?_⟩
    · rw [List.flatMap_cons, List.foldl_append, areRead, isRead, List.append_assoc]
      rfl
    · rw [List.map_cons, names, List.map_cons]

/-- A field on one line is read as it was written, whatever lines the others have. -/
theorem getHeader_readRows {before after : List (String × Text)} {name : String}
    (named : ∀ other ∈ before ++ field :: after, isFieldName other.1 = true)
    (opensNothing : ∀ other ∈ before ++ field :: after, ∀ line ∈ (headRows other).tail, fieldName? line = none)
    (unbroken : Unbroken field.2) (isName : field.1.toList.map Char.toLower = name.toList)
    (isFirst : Lacks before name) :
    getHeader (readRows casing (before ++ field :: after)) name = some (trim field.2) := by
  obtain ⟨namedBefore, namedBehind⟩ := List.forall_mem_append.mp named
  obtain ⟨namedField, namedAfter⟩ := List.forall_mem_cons.mp namedBehind
  obtain ⟨nothingBefore, nothingBehind⟩ := List.forall_mem_append.mp opensNothing
  have rows : (headRows field).map stripReturn = fieldLines [field] := by
    have line : Unbroken (headerLine field.1 field.2) := (solid_fieldLines
      (List.forall_mem_singleton.mpr ⟨namedField, unbroken⟩) _
      (List.mem_map.mpr ⟨field, List.mem_cons_self, rfl⟩)).2
    rw [headRows_unbroken namedField unbroken, List.map_singleton, line.stripReturn]
    rfl
  obtain ⟨first, firstRead, firstNames⟩ := finish_foldl_rows casing namedBefore nothingBefore ⟨[], [], []⟩
  have isRead := @foldl_fieldLines [field] casing (List.forall_mem_singleton.mpr namedField)
    ((before.flatMap fun field => (headRows field).map stripReturn).foldl (HeaderReader.line casing)
      ⟨[], [], []⟩)
  obtain ⟨last, lastRead, -⟩ := finish_foldl_rows casing namedAfter (List.forall_mem_cons.mp nothingBehind).2
    ((fieldLines [field]).foldl (HeaderReader.line casing)
      ((before.flatMap fun field => (headRows field).map stripReturn).foldl (HeaderReader.line casing)
        ⟨[], [], []⟩))
  have notFirst : first.find? (fun header => header.1 = name.toList) = none := by
    rw [List.find?_eq_none]
    intro header mem
    obtain ⟨other, inBefore, same⟩ := List.mem_map.mp (firstNames ▸ List.mem_map_of_mem mem)
    simpa [← same] using isFirst other inBefore
  have start : (⟨[], [], []⟩ : HeaderReader).finish casing = [] := rfl
  rw [readRows, List.flatMap_append, List.flatMap_cons, rows, List.foldl_append, List.foldl_append, lastRead,
    isRead, firstRead, start, List.nil_append, getHeader, List.append_assoc, List.find?_append, notFirst,
    Option.none_or, readFields, List.map_singleton, List.singleton_append, isName, List.find?_cons_of_pos
    (by simp)]
  rfl

end Rows

/-! ## Where a head ends -/

/-- The line breaks that end a head. -/
def headEnds : List Text := [['\r', '\n', '\r', '\n'], ['\n', '\n']]

section Ends

variable {front behind : Text} {mark : Char}

/-- A head without an empty line in it ends where it was ended. -/
theorem splitHeadersBody_concat (visible : mark ≠ '\r' ∧ mark ≠ '\n') (noReturn : '\r' ∉ behind)
    (whole : ∀ ending ∈ headEnds, contains front ending = false) :
    splitHeadersBody (front ++ mark :: '\n' :: '\n' :: behind) = (front ++ [mark], behind) := by
  obtain ⟨noReturns, noFeeds⟩ : ¬ ['\r', '\n', '\r', '\n'] <:+: front ∧ ¬ ['\n', '\n'] <:+: front := by
    simpa [headEnds, contains_iff, ← Bool.not_eq_true] using whole
  have notFound : before? ['\r', '\n', '\r', '\n'] ('\n' :: '\n' :: behind) = none :=
    before?_eq_none (by simpa using noReturn)
  have isFound : before? ['\n', '\n'] ('\n' :: '\n' :: behind) = some [] := before?_match ['\n'] '\n'
  have crlf := @before?_append_stop mark _ _ (by simp [visible]) noReturns ('\n' :: '\n' :: behind)
  have feed := @before?_append_stop mark _ _ (by simp [visible]) noFeeds ('\n' :: '\n' :: behind)
  rw [notFound, Option.map_none] at crlf
  rw [isFound, Option.map_some] at feed
  have isSection : headerSection (front ++ mark :: '\n' :: '\n' :: behind) = front ++ [mark] := by
    rw [headerSection, crlf, feed]
    rfl
  have later : (front ++ mark :: '\n' :: '\n' :: behind).drop (front ++ [mark]).length =
      '\n' :: '\n' :: behind := by
    have split : front ++ mark :: '\n' :: '\n' :: behind = (front ++ [mark]) ++ '\n' :: '\n' :: behind := by
      simp
    rw [split, List.drop_left]
  rw [splitHeadersBody, isSection, later]
  simp [List.isPrefixOf]

/-- A head with an empty line in it leaves the rest of its lines to the body. -/
theorem mem_splitHeadersBody {ending rest : Text} (isEnding : ending ∈ headEnds)
    (early : contains front ending = true) (noReturn : '\r' ∉ rest) (visible : mark ≠ '\r' ∧ mark ≠ '\n') :
    mark ∈ (splitHeadersBody (front ++ mark :: rest)).2 := by
  have cut : ∀ ending ∈ headEnds, ∀ before, before? ending front = some before →
      headerSection (front ++ mark :: rest) = before → mark ∈ (splitHeadersBody (front ++ mark :: rest)).2 := by
    intro ending isEnding before isFound isSection
    obtain ⟨after, isFront⟩ := prefix_of_before? isFound
    have later : (front ++ mark :: rest).drop before.length = ending ++ (after ++ mark :: rest) := by
      rw [← isFront, List.append_assoc, List.append_assoc, List.drop_left]
    rw [splitHeadersBody, isSection, later]
    simp only [headEnds, List.mem_cons, List.not_mem_nil, or_false] at isEnding
    rcases isEnding with rfl | rfl <;> simp [List.isPrefixOf]
  have found : ∀ ending, contains front ending = true → ∃ before, before? ending front = some before := by
    intro ending inFront
    rw [← Option.isSome_iff_exists, Option.isSome_iff_ne_none, ne_eq, before?_eq_none_iff, not_not]
    exact contains_iff.mp inFront
  by_cases hasReturns : contains front ['\r', '\n', '\r', '\n'] = true
  · obtain ⟨before, isFound⟩ := found _ hasReturns
    refine cut _ (by simp [headEnds]) before isFound ?_
    rw [headerSection, before?_append_right isFound]
    rfl
  · have isFeeds : ending = ['\n', '\n'] := by
      simp only [headEnds, List.mem_cons, List.not_mem_nil, or_false] at isEnding
      rcases isEnding with rfl | rfl
      · exact absurd early hasReturns
      · rfl
    subst isFeeds
    obtain ⟨before, isFound⟩ := found _ early
    have noReturns := @before?_append_stop mark _ front (by simp [visible])
      (fun inFront => hasReturns (contains_iff.mpr inFront)) rest
    rw [before?_eq_none noReturn, Option.map_none] at noReturns
    refine cut _ isEnding before isFound ?_
    rw [headerSection, noReturns, before?_append_right isFound]
    rfl

end Ends

end TutaBridge.Mail
