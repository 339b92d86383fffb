import TutaBridge.Mail.MailParts

/-!
# The body structure of a message

`compute_bodystructure` cuts a message into its parts and writes for each of them its type, its
parameters, its encoding and its size. The size is that of the part as it was cut out, where
every line ends in a line feed.
-/

namespace TutaBridge.Mail

open TutaBridge.Std TutaBridge.Std.Text Tuta

/-! ## Parameters -/

/-- `quoted`. -/
def quoted (text : Text) : Text :=
  '"' :: ((text.flatMap fun char => if char = '\\' ∨ char = '"' then ['\\', char] else [char]) ++ ['"'])

/-- `unquote` of a parameter. -/
def unquoteParameter (text : Text) : Text :=
  let trimmed := trim text
  if trimmed.head? = some '"' ∧ trimmed.getLast? = some '"' ∧ 2 ≤ trimmed.length then
    trimmed.tail.dropLast
  else trimmed

/-- The head of a header's value, which its parameters follow. -/
def valueHead (value : Text) : Text := trim (value.takeWhile (· ≠ ';'))

/-- `parse_type_subtype`. -/
def parseTypeSubtype (contentType : Text) : Text × Text :=
  match splitOnce '/' (valueHead contentType) with
  | some (type, subtype) => (trim type, trim subtype)
  | none => (trim (valueHead contentType), "plain".toList)

/-- `subtype_of`. -/
def subtypeOf (contentType : Text) : Option Text :=
  (splitOnce '/' (valueHead contentType)).map fun split => trim split.2

/-- A `key=value` with neither of them empty. -/
def parameterPair (raw : Text) : Option (Text × Text) :=
  (splitOnce '=' (trim raw)).bind fun split =>
    let key := trim split.1
    let value := unquoteParameter (trim split.2)
    if key ≠ [] ∧ value ≠ [] then some (key, value) else none

/-- The loop of `build_params` and `build_disposition`. -/
def parameterPairs (value : Text) : List (Text × Text) :=
  (value.splitOn ';').tail.filterMap parameterPair

section Structure

variable (casing : Casing)

/-- The list that `build_params` and `build_disposition` write. -/
def parameterList (pairs : List (Text × Text)) : Text :=
  if pairs = [] then "NIL".toList
  else
    '(' :: ([' '].intercalate (pairs.map fun pair =>
      quoted (casing.toUppercase pair.1) ++ ' ' :: quoted pair.2) ++ [')'])

/-- `build_params`. -/
def buildParams (contentType : Text) : Text := parameterList casing (parameterPairs contentType)

/-- `build_disposition`. -/
def buildDisposition (headers : List (Text × Text)) : Option Text :=
  (getHeader headers "content-disposition").bind fun disposition =>
    let head := valueHead disposition
    if head = [] then none
    else
      some ('(' :: quoted (casing.toUppercase head) ++
        ' ' :: parameterList casing (parameterPairs disposition) ++ [')'])

/-- `count_lines`. -/
def countLines (body : Text) : Nat := body.count '\n'

/-- `single_part_structure`. -/
def singlePartStructure (contentType encoding body : Text) (headers : List (Text × Text)) : Text :=
  let type := parseTypeSubtype contentType
  let lines :=
    if eqIgnoreAsciiCase type.1 "text".toList then ' ' :: decimal (countLines body) else []
  let extension :=
    match buildDisposition casing headers with
    | some disposition => " NIL ".toList ++ disposition
    | none => []
  '(' :: quoted (casing.toUppercase type.1) ++ ' ' :: quoted (casing.toUppercase type.2) ++
    ' ' :: buildParams casing contentType ++ " NIL NIL ".toList ++
    quoted (casing.toUppercase encoding) ++ ' ' :: decimal (Utf8.encode body).length ++ lines ++
    extension ++ [')']

/-! ## Parts -/

/-- `multipart_structure`, with the function for its parts. -/
def multipartStructure (part : Text → Text) (contentType body : Text) : Text :=
  let boundary := (extractBoundary casing contentType).getD []
  let subtype := (subtypeOf contentType).getD "mixed".toList
  if boundary = [] then
    "(\"TEXT\" \"HTML\" (\"CHARSET\" \"UTF-8\") NIL NIL \"7BIT\" ".toList ++
      decimal (Utf8.encode body).length ++ " 0)".toList
  else
    '(' :: (splitMimeParts body boundary).flatMap part ++ ' ' :: quoted (casing.toUppercase subtype) ++
      " (\"BOUNDARY\" ".toList ++ quoted boundary ++ "))".toList

/-- `part_structure`, with the function for its headers and its body. -/
def partStructure (structureFor : Text → Text → Text → List (Text × Text) → Text) (part : Text) :
    Text :=
  let headers := parseHeaders casing (splitHeadersBody part).1
  structureFor ((getHeader headers "content-type").getD "text/plain".toList)
    ((getHeader headers "content-transfer-encoding").getD "7bit".toList)
    (splitHeadersBody part).2 headers

/-- `bodystructure_for`. A part is shorter than the body it is cut from, so more fuel than the
body is long is never used up. -/
def bodystructureFor : Nat → Text → Text → Text → List (Text × Text) → Text
  | 0, contentType, encoding, body, headers =>
    singlePartStructure casing contentType encoding body headers
  | fuel + 1, contentType, encoding, body, headers =>
    if "multipart/".toList.isPrefixOf (casing.toLowercase contentType) then
      multipartStructure casing (partStructure casing (bodystructureFor fuel)) contentType body
    else singlePartStructure casing contentType encoding body headers

/-- `compute_bodystructure`. -/
def computeBodystructure (rfc2822 : Text) : Text :=
  let headers := parseHeaders casing (splitHeadersBody rfc2822).1
  let body := (splitHeadersBody rfc2822).2
  bodystructureFor casing (body.length + 1)
    ((getHeader headers "content-type").getD "text/html; charset=UTF-8".toList)
    ((getHeader headers "content-transfer-encoding").getD "7bit".toList) body headers

example : computeBodystructure .ascii "Content-Type: application/pdf; name=\"a\\b.pdf\"\r\n\r\nx\r\n".toList =
      "(\"APPLICATION\" \"PDF\" (\"NAME\" \"a\\\\b.pdf\") NIL NIL \"7BIT\" 3)".toList := by
  decide +kernel

/-! ## The fuel -/

/-- The function for parts is only asked about the body of the part. -/
theorem partStructure_congr {first second : Text → Text → Text → List (Text × Text) → Text} {part : Text}
    (same : ∀ contentType encoding headers, first contentType encoding (splitHeadersBody part).2 headers =
      second contentType encoding (splitHeadersBody part).2 headers) :
    partStructure casing first part = partStructure casing second part := by
  unfold partStructure
  dsimp only
  rw [same]

/-- The fuel is never used up. -/
theorem bodystructureFor_fuel {fuel other : Nat} {body : Text} (enough : body.length < fuel)
    (otherEnough : body.length < other) (contentType encoding : Text) (headers : List (Text × Text)) :
    bodystructureFor casing fuel contentType encoding body headers =
      bodystructureFor casing other contentType encoding body headers := by
  induction fuel generalizing other body contentType encoding headers with
  | zero => exact absurd enough (Nat.not_lt_zero _)
  | succ fuel ih =>
    cases other with
    | zero => exact absurd otherEnough (Nat.not_lt_zero _)
    | succ other =>
      have parts : ∀ boundary, (splitMimeParts body boundary).flatMap
          (partStructure casing (bodystructureFor casing fuel)) =
          (splitMimeParts body boundary).flatMap (partStructure casing (bodystructureFor casing other)) := by
        intro boundary
        refine List.flatMap_congr fun part mem => partStructure_congr casing ?_
        have shorter := length_lt_of_mem_splitMimeParts mem
        have notLonger := length_splitHeadersBody_le part
        exact ih (by omega) (by omega)
      unfold bodystructureFor multipartStructure
      dsimp only
      rw [parts]

end Structure

/-! ## Parameters that are read -/

/-- A type before its parameters. -/
theorem valueHead_append {head : Text} (noMark : ';' ∉ head) (trimmed : trim head = head)
    (behind : Text) : valueHead (head ++ ';' :: behind) = head := by
  have plain : ∀ char ∈ head, decide (char ≠ ';') = true := by
    intro char mem
    exact decide_eq_true fun same => noMark (same ▸ mem)
  rw [valueHead, List.takeWhile_append_of_pos plain, List.takeWhile_cons_of_neg (by decide),
    List.append_nil, trimmed]

theorem parseTypeSubtype_eq {contentType type subtype : Text}
    (isHead : valueHead contentType = type ++ '/' :: subtype) (noSlash : '/' ∉ type)
    (trimmed : trim type = type ∧ trim subtype = subtype) :
    parseTypeSubtype contentType = (type, subtype) ∧ subtypeOf contentType = some subtype := by
  have cut := @splitOnce_append '/' type subtype noSlash
  constructor
  · rw [parseTypeSubtype, isHead, cut]
    exact Prod.ext trimmed.1 trimmed.2
  · rw [subtypeOf, isHead, cut, Option.map_some, trimmed.2]

theorem unquoteParameter_quoted (text : Text) : unquoteParameter ('"' :: (text ++ ['"'])) = text := by
  have enclosed := @trim_append_enclosed '"' '"' (by decide) (by decide) [] text
  have trimmed : trim ('"' :: (text ++ ['"'])) = '"' :: (text ++ ['"']) := enclosed
  have isLast : ('"' :: (text ++ ['"'])).getLast? = some '"' := by
    rw [← List.cons_append, List.getLast?_concat]
  rw [unquoteParameter, trimmed, if_pos ⟨rfl, isLast, by simp⟩, List.tail_cons, List.dropLast_concat]

theorem mem_of_mem_trimEnd {text : Text} {char : Char} (mem : char ∈ trimEnd text) : char ∈ text :=
  (List.rdropWhile_prefix _ text).mem mem

/-- A quote without its pair is kept. -/
theorem unquoteParameter_open {text : Text} (noQuote : '"' ∉ text) :
    unquoteParameter ('"' :: text) = '"' :: trimEnd text := by
  have kept : '"' ∉ trimEnd text := mt mem_of_mem_trimEnd noQuote
  rw [unquoteParameter, trim_cons (by decide), if_neg]
  rintro ⟨-, isLast, long⟩
  have notEmpty : trimEnd text ≠ [] := by
    intro isEmpty
    rw [isEmpty] at long
    exact absurd long (by decide)
  rw [List.getLast?_cons_of_ne_nil notEmpty] at isLast
  exact kept (List.mem_of_getLast? isLast)

theorem parameterPair_eq {key segment : Text} (isKey : key ≠ [] ∧ trim key = key ∧ '=' ∉ key) :
    parameterPair (' ' :: (key ++ '=' :: '"' :: segment)) =
      if unquoteParameter ('"' :: trimEnd segment) ≠ [] then some (key, unquoteParameter ('"' :: trimEnd segment))
      else none := by
  obtain ⟨notEmpty, trimmed, noEquals⟩ := isKey
  obtain ⟨head, rest, isCons⟩ := List.exists_cons_of_ne_nil notEmpty
  have visible : isWhitespace head = false := by
    have first := (trim_eq_self_iff.mp trimmed).1 head
    rw [isCons] at first
    exact first rfl
  have rawTrimmed : trim (' ' :: (key ++ '=' :: '"' :: segment)) = key ++ '=' :: '"' :: trimEnd segment := by
    have behind := @trimEnd_append (rest ++ ['=']) segment '"' (by decide)
    simp only [List.append_assoc, List.cons_append, List.nil_append] at behind
    have blank : trim (' ' :: (key ++ '=' :: '"' :: segment)) = trim (key ++ '=' :: '"' :: segment) := rfl
    rw [blank, isCons, List.cons_append, trim_cons visible, behind, List.cons_append]
  rw [parameterPair, rawTrimmed, splitOnce_append noEquals, Option.bind_some]
  dsimp only
  rw [trimmed, trim_cons (by decide), trimEnd_trimEnd]
  simp [notEmpty]

theorem parameterPairs_quoted {head key value : Text} (noMark : ';' ∉ head ∧ ';' ∉ key ∧ ';' ∉ value)
    (isKey : key ≠ [] ∧ trim key = key ∧ '=' ∉ key) :
    parameterPairs (head ++ ';' :: ' ' :: (key ++ '=' :: '"' :: (value ++ ['"']))) =
      if value = [] then [] else [(key, value)] := by
  have whole : ';' ∉ ' ' :: (key ++ '=' :: '"' :: (value ++ ['"'])) := by
    simp [noMark]
  have visible : trimEnd (value ++ ['"']) = value ++ ['"'] := @trimEnd_append value [] '"' (by decide)
  rw [parameterPairs, List.splitOn_append_cons_self_of_not_mem noMark.1, List.tail_cons,
    List.splitOn_eq_singleton whole, List.filterMap_cons, parameterPair_eq isKey, visible,
    unquoteParameter_quoted, List.filterMap_nil]
  by_cases isEmpty : value = []
  · rw [if_pos isEmpty, if_neg (not_not.mpr isEmpty)]
  · rw [if_neg isEmpty, if_pos isEmpty]

/-- A mark in a value cuts it, and the quote before it is kept. -/
theorem parameterPairs_cut {head key value : Text} (noMark : ';' ∉ head ∧ ';' ∉ key)
    (isKey : key ≠ [] ∧ trim key = key ∧ '=' ∉ key) (noQuote : '"' ∉ value) (mark : ';' ∈ value) :
    ∃ kept rest, parameterPairs (head ++ ';' :: ' ' :: (key ++ '=' :: '"' :: (value ++ ['"']))) =
      (key, '"' :: kept) :: rest := by
  obtain ⟨before, behind, rfl, noMarkBefore⟩ := List.eq_append_cons_of_mem mark
  have cut : ' ' :: (key ++ '=' :: '"' :: (before ++ ';' :: behind ++ ['"'])) =
      ' ' :: (key ++ '=' :: '"' :: before) ++ ';' :: (behind ++ ['"']) := by
    simp
  have whole : ';' ∉ ' ' :: (key ++ '=' :: '"' :: before) := by
    simp [noMark, noMarkBefore]
  have noQuoteBefore : '"' ∉ trimEnd before := fun mem =>
    noQuote (List.mem_append_left _ (mem_of_mem_trimEnd mem))
  rw [parameterPairs, List.splitOn_append_cons_self_of_not_mem noMark.1, List.tail_cons, cut,
    List.splitOn_append_cons_self_of_not_mem whole, List.filterMap_cons, parameterPair_eq isKey,
    unquoteParameter_open noQuoteBefore, if_pos (List.cons_ne_nil _ _)]
  exact ⟨_, _, rfl⟩

theorem mem_of_mem_trim {text : Text} {char : Char} (mem : char ∈ trim text) : char ∈ text :=
  (List.dropWhile_sublist _).mem ((List.rdropWhile_prefix _ _).mem mem)

theorem mem_of_mem_unquoteParameter {text : Text} {char : Char} (mem : char ∈ unquoteParameter text) :
    char ∈ text := by
  rw [unquoteParameter] at mem
  split at mem
  · exact mem_of_mem_trim (List.mem_of_mem_tail (List.mem_of_mem_dropLast mem))
  · exact mem_of_mem_trim mem

theorem mem_intercalate_of_mem {separator part : Text} {parts : List Text} {char : Char}
    (mem : part ∈ parts) (inPart : char ∈ part) : char ∈ separator.intercalate parts := by
  induction parts with
  | nil => cases mem
  | cons first rest ih =>
    rcases List.mem_cons.mp mem with rfl | inRest
    · cases rest with
      | nil => simpa using inPart
      | cons second rest =>
        rw [List.intercalate_cons_cons]
        simp [inPart]
    · cases rest with
      | nil => cases inRest
      | cons second rest =>
        rw [List.intercalate_cons_cons]
        exact List.mem_append_right _ (ih inRest)

/-- What is read of a value stands in it. -/
theorem mem_of_mem_parameterPairs {value : Text} {pair : Text × Text}
    (mem : pair ∈ parameterPairs value) : ∀ char ∈ pair.1 ++ pair.2, char ∈ value := by
  obtain ⟨raw, isSegment, isPair⟩ := List.mem_filterMap.mp mem
  obtain ⟨split, found, isPair⟩ := Option.bind_eq_some_iff.mp isPair
  have inRaw : ∀ char ∈ split.1 ++ split.2, char ∈ raw := by
    obtain ⟨-, isRaw⟩ := @eq_of_splitOnce _ _ split.1 split.2 found
    intro char inSplit
    refine mem_of_mem_trim (isRaw ▸ ?_)
    rcases List.mem_append.mp inSplit with inFirst | inSecond
    · exact List.mem_append_left _ inFirst
    · exact List.mem_append_right _ (List.mem_cons_of_mem _ inSecond)
  have inValue : ∀ char ∈ raw, char ∈ value := by
    intro char inRaw
    have joined : [';'].intercalate (value.splitOn ';') = value := List.intercalate_splitOn ';'
    rw [← joined]
    exact mem_intercalate_of_mem (List.mem_of_mem_tail isSegment) inRaw
  dsimp only at isPair
  split at isPair
  · cases isPair
    intro char inPair
    refine inValue char (inRaw char ?_)
    rcases List.mem_append.mp inPair with inKey | inRest
    · exact List.mem_append_left _ (mem_of_mem_trim inKey)
    · exact List.mem_append_right _ (mem_of_mem_trim (mem_of_mem_unquoteParameter inRest))
  · cases isPair

end TutaBridge.Mail
