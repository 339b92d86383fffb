import TutaBridge.Mail.BodyText
import TutaBridge.Mail.Encodings
import TutaBridge.Mail.Nesting
import TutaBridge.Mail.SlicedHeaders

/-!
# Messages by their slices

A parameter of a header is looked for in the header's lower case, and the byte position it has
there is taken for one in the header. Lower case is longer or shorter than some letters, so the
position may be inside a character or beyond the end, where slicing the header panics. These are
the only slices of the functions that read a message that can panic.
-/

namespace TutaBridge.Mail

open TutaBridge.Std TutaBridge.Std.Text TutaBridge.Std.Recursion

/-! ## Transfer encodings -/

def byteIs? (bytes : List UInt8) (position : Nat) (value : UInt8) : Option Bool :=
  bytes[position]?.map fun byte => byte = value

/-- The loop of `decode_quoted_printable`. -/
def decodeQuotedPrintableFrom? (bytes : List UInt8) : Nat → Nat → Option (List UInt8)
  | 0, _ => some []
  | fuel + 1, position =>
    if position < bytes.length then do
      if (← byteIs? bytes position 61) then
        let isBreak ←
          if position + 2 < bytes.length then do
            if (← byteIs? bytes (position + 1) 13) then byteIs? bytes (position + 2) 10
            else some false
          else some false
        let isFeed ← if position + 1 < bytes.length then byteIs? bytes (position + 1) 10 else some false
        if isBreak then decodeQuotedPrintableFrom? bytes fuel (position + 3)
        else if isFeed then decodeQuotedPrintableFrom? bytes fuel (position + 2)
        else if position + 2 < bytes.length then do
          let first ← bytes[position + 1]?
          let second ← bytes[position + 2]?
          (decodeQuotedPrintableFrom? bytes fuel (position + 3)).map ((hexByte? first second).toList ++ ·)
        else (decodeQuotedPrintableFrom? bytes fuel (position + 1)).map (61 :: ·)
      else
        let byte ← bytes[position]?
        (decodeQuotedPrintableFrom? bytes fuel (position + 1)).map (byte :: ·)
    else some []

/-- `decode_quoted_printable`. -/
def decodeQuotedPrintable? (text : Text) : Option Text :=
  (decodeQuotedPrintableFrom? (Utf8.encode text) ((Utf8.encode text).length + 1) 0).map Utf8.decodeLossy

theorem decodeQuotedPrintableFrom?_eq {bytes : List UInt8} {fuel position : Nat}
    (enough : bytes.length < fuel + position) : decodeQuotedPrintableFrom? bytes fuel position =
      some (decodeQuotedPrintableBytes (bytes.drop position)) := by
  induction fuel generalizing position with
  | zero =>
    rw [decodeQuotedPrintableFrom?, List.drop_of_length_le (by omega), decodeQuotedPrintableBytes]
  | succ fuel ih =>
    rw [decodeQuotedPrintableFrom?]
    cases rest : bytes.drop position with
    | nil =>
      have beyond := List.drop_eq_nil_iff.mp rest
      rw [if_neg (by omega), decodeQuotedPrintableBytes]
    | cons byte later =>
      have at0 : bytes[position]? = some byte := by rw [← List.head?_drop, rest, List.head?_cons]
      have isLater : bytes.drop (position + 1) = later := by rw [← List.tail_drop, rest, List.tail_cons]
      have length := congrArg List.length isLater
      have inside : position < bytes.length := (List.getElem?_eq_some_iff.mp at0).1
      have one := @ih (position + 1) (by omega)
      rw [List.length_drop] at length
      rw [isLater] at one
      have isNext : ∀ offset, bytes[position + 1 + offset]? = later[offset]? := by
        intro offset
        rw [← isLater, List.getElem?_drop]
      rw [if_pos inside, byteIs?, at0, one]
      simp only [Option.bind_eq_bind, Option.bind_some, Option.map_some, decide_eq_true_eq]
      by_cases isEscape : byte = 61
      · subst isEscape
        rw [if_pos rfl]
        rcases later with - | ⟨first, - | ⟨second, others⟩⟩
        · rw [List.length_nil] at length
          have noFirst : ¬ position + 1 < bytes.length := by omega
          have noSecond : ¬ position + 2 < bytes.length := by omega
          simp [noFirst, noSecond, decodeQuotedPrintableBytes]
        · rw [List.length_singleton] at length
          have isFirst : ∀ value, byteIs? bytes (position + 1) value = some (decide (first = value)) := by
            intro value
            exact congrArg (Option.map _) (isNext 0)
          have hasFirst : position + 1 < bytes.length := by omega
          have noSecond : ¬ position + 2 < bytes.length := by omega
          have isOthers : bytes.drop (position + 2) = [] := by
            rw [← List.tail_drop, isLater, List.tail_cons]
          have two := @ih (position + 2) (by omega)
          rw [isOthers] at two
          by_cases isFeed : first = 10 <;>
            simp [two, isFirst, hasFirst, noSecond, isFeed, decodeQuotedPrintableBytes]
        · simp only [List.length_cons] at length
          have isFirst : ∀ value, byteIs? bytes (position + 1) value = some (decide (first = value)) := by
            intro value
            exact congrArg (Option.map _) (isNext 0)
          have isSecond : ∀ value, byteIs? bytes (position + 2) value = some (decide (second = value)) := by
            intro value
            exact congrArg (Option.map _) (isNext 1)
          have hasFirst : position + 1 < bytes.length := by omega
          have hasSecond : position + 2 < bytes.length := by omega
          have behindFirst : bytes.drop (position + 2) = second :: others := by
            rw [← List.tail_drop, isLater, List.tail_cons]
          have behindSecond : bytes.drop (position + 3) = others := by
            rw [← List.tail_drop, behindFirst, List.tail_cons]
          have two := @ih (position + 2) (by omega)
          have three := @ih (position + 3) (by omega)
          rw [behindFirst] at two
          rw [behindSecond] at three
          have at1 : bytes[position + 1]? = some first := isNext 0
          have at2 : bytes[position + 2]? = some second := isNext 1
          rw [if_pos hasFirst, if_pos hasSecond, if_pos hasSecond, two, three, isFirst, isFirst,
            isSecond, at1, at2, decodeQuotedPrintableBytes, if_pos rfl]
          by_cases isReturn : first = 13 <;> by_cases isFeed : first = 10 <;>
            by_cases isLast : second = 10 <;> simp [isReturn, isFeed, isLast]
      · rw [if_neg isEscape, decodeQuotedPrintableBytes_cons isEscape]

theorem decodeQuotedPrintable?_eq (text : Text) :
    decodeQuotedPrintable? text = some (decodeQuotedPrintable text) := by
  rw [decodeQuotedPrintable?, decodeQuotedPrintableFrom?_eq (by omega), List.drop_zero,
    Option.map_some, decodeQuotedPrintable]

/-- `decode_transfer`. -/
def decodeTransfer? (body encoding : Text) : Option Text :=
  if contains encoding "base64".toList then
    some (((decodeBase64Lines body).map Utf8.decodeLossy).getD body)
  else if contains encoding "quoted-printable".toList then decodeQuotedPrintable? body
  else some body

/-- The bytes of an attachment. -/
def decodeAttachment? (body encoding : Text) : Option (List UInt8) :=
  if contains encoding "base64".toList then some ((decodeBase64Lines body).getD [])
  else if contains encoding "quoted-printable".toList then
    (decodeQuotedPrintable? body).map Utf8.encode
  else some (Utf8.encode body)

theorem decodeTransfer?_eq (body encoding : Text) :
    decodeTransfer? body encoding = some (decodeTransfer body encoding) := by
  unfold decodeTransfer? decodeTransfer
  rw [decodeQuotedPrintable?_eq]
  split
  · rfl
  · split <;> rfl

theorem decodeAttachment?_eq (body encoding : Text) :
    decodeAttachment? body encoding = some (decodeAttachment body encoding) := by
  unfold decodeAttachment? decodeAttachment
  rw [decodeQuotedPrintable?_eq]
  split
  · rfl
  · split <;> rfl

section Messages

variable (casing : Casing)

/-! ## Parameters -/

/-- The value behind a needle, in quotes or up to white space or a semicolon. -/
def valueText (rest : Text) : Text :=
  if rest.head? = some '"' then rest.tail.takeWhile (· ≠ '"')
  else rest.takeWhile fun char => !(isWhitespace char || char = ';')

/-- What `extract_boundary` and `extract_param` share. -/
def parameterValue? (needle header : Text) : Option (Option Text) :=
  match find needle (casing.toLowercase header) with
  | none => some none
  | some position => do
      let rest ← sliceFrom? (position + byteLength needle) header
      let value ←
        if rest.head? = some '"' then
          (sliceFrom? 1 rest).map fun quoted => quoted.takeWhile (· ≠ '"')
        else some (rest.takeWhile fun char => !(isWhitespace char || char = ';'))
      return if value = [] then none else some value

/-- `extract_boundary`. -/
def extractBoundary? (contentType : Text) : Option (Option Text) :=
  parameterValue? casing "boundary=".toList contentType

/-- What `extract_param` looks for. -/
def paramNeedle (key : String) : Text := casing.toLowercase key.toList ++ ['=']

/-- `extract_param`. -/
def extractParam? (header : Text) (key : String) : Option (Option Text) :=
  parameterValue? casing (paramNeedle casing key) header

/-- The end of the first needle in a header's lower case has the position of a character in the
header. -/
def NeedleInside (needle header : Text) : Prop :=
  ∀ position, IsFirst needle position (casing.toLowercase header) →
    IsCharBoundary (position + byteLength needle) header

/-- Behind the position that a needle has in a header's lower case the header has a value. -/
def HasValue (needle header value : Text) : Prop :=
  value ≠ [] ∧ ∃ front rest, header = front ++ rest ∧ value = valueText rest ∧
    ∃ position, IsFirst needle position (casing.toLowercase header) ∧
      byteLength front = position + byteLength needle

variable {casing}

theorem parameterValue?_of_absent {needle header : Text}
    (absent : ¬ needle <:+: casing.toLowercase header) : parameterValue? casing needle header = some none := by
  rw [parameterValue?, find_eq_none_iff.mpr absent]

/-- Where the header can be sliced, its value is read there. -/
theorem parameterValue?_of_inside {needle front rest : Text} {position : Nat}
    (isFirst : IsFirst needle position (casing.toLowercase (front ++ rest)))
    (inside : byteLength front = position + byteLength needle) :
    parameterValue? casing needle (front ++ rest) =
      some (if valueText rest = [] then none else some (valueText rest)) := by
  rw [parameterValue?, find_eq_some_iff.mpr isFirst]
  dsimp only
  rw [sliceFrom?_of_eq rfl inside]
  simp only [Option.bind_eq_bind, Option.bind_some]
  by_cases quotes : rest.head? = some '"'
  · obtain ⟨quoted, rfl⟩ := List.head?_eq_some_iff.mp quotes
    have split : '"' :: quoted = ['"'] ++ quoted := rfl
    have behind : sliceFrom? 1 ('"' :: quoted) = some quoted := sliceFrom?_of_eq split (by decide)
    rw [valueText, if_pos quotes, if_pos quotes, behind, List.tail_cons]
    rfl
  · rw [valueText, if_neg quotes, if_neg quotes]
    rfl

/-- Looking for a parameter panics unless its position is inside the header. -/
theorem isSome_parameterValue?_iff {needle header : Text} :
    (parameterValue? casing needle header).isSome = true ↔ NeedleInside casing needle header := by
  by_cases occurs : needle <:+: casing.toLowercase header
  · obtain ⟨position, found⟩ : ∃ position, find needle (casing.toLowercase header) = some position := by
      rw [← Option.isSome_iff_exists, ← Option.ne_none_iff_isSome]
      exact mt find_eq_none_iff.mp (not_not.mpr occurs)
    have isFirst := find_eq_some_iff.mp found
    constructor
    · intro returns other isOther
      obtain rfl := Option.some.inj (found.symm.trans (find_eq_some_iff.mpr isOther))
      rw [← isSome_sliceFrom?_iff]
      rw [parameterValue?, found] at returns
      cases sliced : sliceFrom? (position + byteLength needle) header with
      | none => simp [sliced] at returns
      | some rest => rfl
    · intro inside
      obtain ⟨front, rest, rfl, isPosition⟩ := inside position isFirst
      rw [parameterValue?_of_inside isFirst isPosition]
      rfl
  · rw [parameterValue?_of_absent occurs]
    refine iff_of_true rfl fun position isFirst => absurd ?_ occurs
    obtain ⟨front, back, split, -⟩ := isFirst.occurs
    exact ⟨front, back, split.symm⟩

theorem parameterValue?_eq_iff {needle header value : Text} :
    parameterValue? casing needle header = some (some value) ↔ HasValue casing needle header value := by
  constructor
  · intro read
    have inside := isSome_parameterValue?_iff.mp (Option.isSome_of_eq_some read)
    cases found : find needle (casing.toLowercase header) with
    | none =>
      rw [parameterValue?, found] at read
      cases read
    | some position =>
      have isFirst := find_eq_some_iff.mp found
      obtain ⟨front, rest, rfl, isPosition⟩ := inside position isFirst
      rw [parameterValue?_of_inside isFirst isPosition] at read
      split at read
      · cases read
      next notEmpty =>
        cases read
        exact ⟨notEmpty, front, rest, rfl, rfl, position, isFirst, isPosition⟩
  · rintro ⟨notEmpty, front, rest, rfl, rfl, position, isFirst, isPosition⟩
    rw [parameterValue?_of_inside isFirst isPosition, if_neg notEmpty]

/-! ## Parts -/

variable (casing)

/-- Whether a part is an attachment. -/
def isAttachment? (headers : List (Text × Text)) : Option Bool :=
  if contains (lowerHeader casing headers "content-disposition") "attachment".toList then some true
  else
    (extractParam? casing ((getHeader headers "content-type").getD []) "name").map fun name =>
      name.isSome && !contains (lowerHeader casing headers "content-type") "text/".toList

/-- The name of an attachment, as it is written. -/
def filenameOf? (headers : List (Text × Text)) : Option Text := do
  match ← extractParam? casing ((getHeader headers "content-disposition").getD []) "filename" with
  | some name => return name
  | none =>
    let name ← extractParam? casing ((getHeader headers "content-type").getD []) "name"
    return name.getD "attachment.bin".toList

/-- The attachment of a part. -/
def attachmentOf? (headers : List (Text × Text)) (body : Text) : Option Attachment := do
  let contentType := (getHeader headers "content-type").getD []
  let data ← decodeAttachment? body (lowerHeader casing headers "content-transfer-encoding")
  let filename ← decodeHeaderValue? casing (← filenameOf? casing headers)
  let mimeType := casing.toLowercase (trim (contentType.takeWhile (· ≠ ';')))
  return {
    filename
    mimeType := if mimeType = [] then "application/octet-stream".toList else mimeType
    data }

/-- The loop body of `extract_multipart_body_and_attachments`, with the function for a part in
several parts. -/
def readPart? (extract : Text → Text → Option BodyRead) (read : PartsRead) (part : Text) :
    Option PartsRead := do
  let (headersText, body) ← splitHeadersBody? part
  let headers := parseHeaders casing headersText
  let contentType := (getHeader headers "content-type").getD []
  let lower := lowerHeader casing headers "content-type"
  let encoding := lowerHeader casing headers "content-transfer-encoding"
  let attached ← isAttachment? casing headers
  if contains lower "multipart/".toList then (extract body contentType).map read.nested
  else if attached then
    (attachmentOf? casing headers body).map fun attachment =>
      { read with attachments := read.attachments ++ [attachment] }
  else if contains lower "text/html".toList ∧ read.htmlPart = none then
    (decodeTransfer? body encoding).map fun decoded => { read with htmlPart := some decoded }
  else if contains lower "text/plain".toList ∧ read.htmlPart = none ∧ read.textPart = none then
    (decodeTransfer? body encoding).map fun decoded => { read with textPart := some decoded }
  else some read

/-- `extract_multipart_body_and_attachments`. A part is shorter than the body it is cut from,
so more fuel than the body is long is never used up. -/
def extractMultipart? : Nat → Text → Text → Option BodyRead
  | 0, body, _ => some ⟨body, [], none⟩
  | fuel + 1, body, contentType => do
      match ← extractBoundary? casing contentType with
      | none => return ⟨body, [], none⟩
      | some boundary =>
        let read ← (splitMimeParts body boundary).foldlM (readPart? casing (extractMultipart? fuel))
          ⟨none, none, []⟩
        return read.finish body

/-- The headers of a part. -/
def headersOf (part : Text) : List (Text × Text) := parseHeaders casing (splitHeadersBody part).1

/-- The type of a part in several parts, and of a message that is read. -/
def isMultipart (lower : Text) : Bool := contains lower "multipart/".toList

/-- A header that says that a part is an attachment. -/
def SaysAttachment (headers : List (Text × Text)) : Prop :=
  contains (lowerHeader casing headers "content-disposition") "attachment".toList = true ∨
    (∃ name, HasValue casing (paramNeedle casing "name") ((getHeader headers "content-type").getD []) name) ∧
      contains (lowerHeader casing headers "content-type") "text/".toList = false

/-- The parameters that are looked for in a part have their positions inside its headers. The name
of a file is only looked for in the Content-Type where its disposition does not give one. -/
structure PartInside (headers : List (Text × Text)) : Prop where
  name : contains (lowerHeader casing headers "content-disposition") "attachment".toList = false →
    NeedleInside casing (paramNeedle casing "name") ((getHeader headers "content-type").getD [])
  filename : isMultipart (lowerHeader casing headers "content-type") = false → SaysAttachment casing headers →
      NeedleInside casing (paramNeedle casing "filename")
          ((getHeader headers "content-disposition").getD []) ∧
        ((∀ name, ¬ HasValue casing (paramNeedle casing "filename")
          ((getHeader headers "content-disposition").getD []) name) →
            NeedleInside casing (paramNeedle casing "name") ((getHeader headers "content-type").getD []))

/-- A body in several parts, with its Content-Type, is one of the parts of another. -/
def Nested (multipart : Text → Bool) (outer inner : Text × Text) : Prop :=
  ∃ boundary, HasValue casing "boundary=".toList outer.2 boundary ∧ ∃ part ∈ splitMimeParts outer.1 boundary,
      multipart (lowerHeader casing (headersOf casing part) "content-type") = true ∧
        inner = ((splitHeadersBody part).2, (getHeader (headersOf casing part) "content-type").getD [])

/-- What is looked for where a body is cut into its parts has its position inside. -/
structure LevelInside (level : Text × Text) : Prop where
  boundary : NeedleInside casing "boundary=".toList level.2
  parts : ∀ boundary, HasValue casing "boundary=".toList level.2 boundary →
    ∀ part ∈ splitMimeParts level.1 boundary, PartInside casing (headersOf casing part)

variable {casing}

theorem isSome_isAttachment?_iff {headers : List (Text × Text)} :
    (isAttachment? casing headers).isSome = true ↔
      (contains (lowerHeader casing headers "content-disposition") "attachment".toList = false →
        NeedleInside casing (paramNeedle casing "name") ((getHeader headers "content-type").getD [])) := by
  unfold isAttachment? extractParam?
  by_cases marked : contains (lowerHeader casing headers "content-disposition") "attachment".toList = true
  · rw [if_pos marked, marked]
    simp
  · rw [if_neg marked, Option.isSome_map, isSome_parameterValue?_iff]
    exact ⟨fun inside _ => inside, fun inside => inside (Bool.not_eq_true _ ▸ marked)⟩

theorem isAttachment?_eq_iff {headers : List (Text × Text)} :
    isAttachment? casing headers = some true ↔ SaysAttachment casing headers := by
  unfold isAttachment? SaysAttachment extractParam?
  by_cases marked : contains (lowerHeader casing headers "content-disposition") "attachment".toList = true
  · rw [if_pos marked]
    exact iff_of_true rfl (.inl marked)
  · rw [if_neg marked, or_iff_right marked, Option.map_eq_some_iff]
    constructor
    · rintro ⟨found, isFound, both⟩
      obtain ⟨hasName, notText⟩ := Bool.and_eq_true_iff.mp both
      obtain ⟨name, rfl⟩ := Option.isSome_iff_exists.mp hasName
      exact ⟨⟨name, parameterValue?_eq_iff.mp isFound⟩, by rwa [Bool.not_eq_true'] at notText⟩
    · rintro ⟨⟨name, hasName⟩, notText⟩
      exact ⟨some name, parameterValue?_eq_iff.mpr hasName, by rw [notText]; rfl⟩

/-- Where a value is looked for without a panic, there is one or none. -/
theorem parameterValue?_cases (needle header : Text) :
    (parameterValue? casing needle header = none ∧ ¬ NeedleInside casing needle header) ∨
      (NeedleInside casing needle header ∧ parameterValue? casing needle header = some none ∧
        ∀ value, ¬ HasValue casing needle header value) ∨
      ∃ value, NeedleInside casing needle header ∧ parameterValue? casing needle header = some (some value) ∧
        ∀ other, HasValue casing needle header other ↔ other = value := by
  have returns := @isSome_parameterValue?_iff casing needle header
  have values : ∀ value, parameterValue? casing needle header = some (some value) ↔
      HasValue casing needle header value := fun value => parameterValue?_eq_iff
  cases read : parameterValue? casing needle header with
  | none =>
    refine .inl ⟨rfl, fun inside => ?_⟩
    have some := returns.mpr inside
    rw [read] at some
    cases some
  | some found =>
    have inside := returns.mp (Option.isSome_of_eq_some read)
    cases found with
    | none =>
      refine .inr (.inl ⟨inside, rfl, fun value hasValue => ?_⟩)
      cases read.symm.trans ((values value).mpr hasValue)
    | some value =>
      refine .inr (.inr ⟨value, inside, rfl, fun other => ?_⟩)
      rw [← values other, read, Option.some_inj, Option.some_inj]
      exact eq_comm

theorem isSome_filenameOf?_iff {headers : List (Text × Text)} : (filenameOf? casing headers).isSome = true ↔
      NeedleInside casing (paramNeedle casing "filename")
          ((getHeader headers "content-disposition").getD []) ∧
        ((∀ name, ¬ HasValue casing (paramNeedle casing "filename")
          ((getHeader headers "content-disposition").getD []) name) →
            NeedleInside casing (paramNeedle casing "name")
              ((getHeader headers "content-type").getD [])) := by
  have fallback := @isSome_parameterValue?_iff casing (paramNeedle casing "name")
    ((getHeader headers "content-type").getD [])
  unfold filenameOf? extractParam?
  generalize "attachment.bin".toList = unnamed
  generalize parameterValue? casing (paramNeedle casing "name")
    ((getHeader headers "content-type").getD []) = other at fallback ⊢
  rw [← fallback]
  rcases @parameterValue?_cases casing (paramNeedle casing "filename")
      ((getHeader headers "content-disposition").getD []) with
    ⟨read, outside⟩ | ⟨inside, read, noValue⟩ | ⟨value, inside, read, isValue⟩
  · rw [read]
    exact iff_of_false Bool.false_ne_true fun both => outside both.1
  · rw [read]
    cases other with
    | none => exact iff_of_false Bool.false_ne_true fun both => Bool.false_ne_true (both.2 noValue)
    | some name => exact iff_of_true rfl ⟨inside, fun _ => rfl⟩
  · rw [read]
    exact iff_of_true rfl ⟨inside, fun noValue => absurd ((isValue value).mpr rfl) (noValue value)⟩

theorem isSome_attachmentOf? (headers : List (Text × Text)) (body : Text) :
    (attachmentOf? casing headers body).isSome = (filenameOf? casing headers).isSome := by
  rw [attachmentOf?, decodeAttachment?_eq, Option.bind_eq_bind, Option.bind_some]
  cases filenameOf? casing headers with
  | none => rfl
  | some name =>
    rw [Option.bind_eq_bind, Option.bind_some, decodeHeaderValue?_eq]
    rfl

/-- A round of the loop panics where a position is outside its part, or in the part itself. -/
theorem isSome_readPart?_iff {extract : Text → Text → Option BodyRead} (read : PartsRead) {part : Text} :
    (readPart? casing extract read part).isSome = true ↔ PartInside casing (headersOf casing part) ∧
        (isMultipart (lowerHeader casing (headersOf casing part) "content-type") = true →
          (extract (splitHeadersBody part).2
            ((getHeader (headersOf casing part) "content-type").getD [])).isSome = true) := by
  have tests := @isSome_isAttachment?_iff casing (headersOf casing part)
  have attaches := @isAttachment?_eq_iff casing (headersOf casing part)
  have named := @isSome_filenameOf?_iff casing (headersOf casing part)
  rw [readPart?, splitHeadersBody?_eq, Option.bind_eq_bind, Option.bind_some]
  dsimp only
  rw [← headersOf]
  cases isAttached : isAttachment? casing (headersOf casing part) with
  | none =>
    rw [isAttached] at tests
    exact iff_of_false Bool.false_ne_true fun inside =>
      Bool.false_ne_true (tests.mpr inside.1.name)
  | some attachment =>
    rw [isAttached] at tests attaches
    have name := tests.mp rfl
    rw [Option.bind_eq_bind, Option.bind_some]
    cases multi : isMultipart (lowerHeader casing (headersOf casing part) "content-type") with
    | true =>
      have several := multi
      rw [isMultipart] at several
      rw [if_pos several, Option.isSome_map]
      exact ⟨fun returns => ⟨⟨name, fun notMulti _ =>
          absurd (notMulti.symm.trans multi) Bool.false_ne_true⟩, fun _ => returns⟩,
        fun inside => inside.2 rfl⟩
    | false =>
      have single := multi
      rw [isMultipart] at single
      rw [single, if_neg Bool.false_ne_true]
      cases attachment with
      | true =>
        have isFile := attaches.mp rfl
        rw [if_pos rfl, Option.isSome_map, isSome_attachmentOf?, named]
        exact ⟨fun inside => ⟨⟨name, fun _ _ => inside⟩, fun isTrue =>
            absurd isTrue Bool.false_ne_true⟩,
          fun inside => inside.1.filename multi isFile⟩
      | false =>
        have noFile : ¬ SaysAttachment casing (headersOf casing part) := fun isFile =>
          Bool.false_ne_true (Option.some.inj (attaches.mpr isFile))
        rw [if_neg Bool.false_ne_true, decodeTransfer?_eq, Option.map_some, Option.map_some]
        refine iff_of_true ?_ ⟨⟨name, fun _ isFile => absurd isFile noFile⟩, fun isTrue =>
          absurd isTrue Bool.false_ne_true⟩
        split
        · rfl
        · split <;> rfl

/-- A body in several parts is read without a panic when every level of it can be sliced. -/
theorem isSome_extractMultipart?_iff {fuel : Nat} {body : Text} (contentType : Text) (enough : body.length < fuel) :
    (extractMultipart? casing fuel body contentType).isSome = true ↔
      ∀ level, Relation.ReflTransGen (Nested casing isMultipart) (body, contentType) level →
        LevelInside casing level := by
  induction fuel generalizing body contentType with
  | zero => exact absurd enough (Nat.not_lt_zero _)
  | succ fuel ih =>
    rw [forall_reached_iff, extractMultipart?, extractBoundary?]
    rcases @parameterValue?_cases casing "boundary=".toList contentType with
      ⟨read, outside⟩ | ⟨inside, read, noValue⟩ | ⟨boundary, inside, read, isValue⟩
    · rw [read]
      exact iff_of_false Bool.false_ne_true fun both => outside both.1.boundary
    · rw [read]
      refine iff_of_true rfl ⟨⟨inside, fun other hasValue => absurd hasValue (noValue other)⟩, ?_⟩
      rintro second ⟨other, hasValue, -⟩
      exact absurd hasValue (noValue other)
    · have hasValue := (isValue boundary).mpr rfl
      have rounds := @isSome_foldlM_iff _ _ (readPart? casing (extractMultipart? casing fuel))
        (fun part => PartInside casing (headersOf casing part) ∧
          (isMultipart (lowerHeader casing (headersOf casing part) "content-type") = true →
            (extractMultipart? casing fuel (splitHeadersBody part).2
              ((getHeader (headersOf casing part) "content-type").getD [])).isSome = true))
        (splitMimeParts body boundary) (fun state part _ => isSome_readPart?_iff state) ⟨none, none, []⟩
      have returns : ∀ loop : Option PartsRead,
          (loop.bind fun read => some (read.finish body)).isSome = loop.isSome := by
        rintro (- | loop) <;> rfl
      rw [read]
      refine Iff.trans (Bool.eq_iff_iff.mp (returns _)) (rounds.trans ?_)
      constructor
      · intro all
        refine ⟨⟨inside, fun other isOther part mem => ?_⟩, ?_⟩
        · rw [(isValue other).mp isOther] at mem
          exact (all part mem).1
        · rintro second ⟨other, isOther, part, mem, several, rfl⟩
          rw [(isValue other).mp isOther] at mem
          have shorter : (splitHeadersBody part).2.length < body.length := length_partBody_lt mem
          exact (ih _ (by omega)).mp ((all part mem).2 several)
      · rintro ⟨level, later⟩ part mem
        have shorter : (splitHeadersBody part).2.length < body.length := length_partBody_lt mem
        exact ⟨level.parts boundary hasValue part mem, fun several =>
          (ih _ (by omega)).mpr (later _ ⟨boundary, hasValue, part, mem, several, rfl⟩)⟩

/-! ## The message -/

/-- `ParsedMessage`. Whether it is plain text is whether it has a plain text. -/
structure ParsedMessage where
  sender : Text × Text
  addresses : AddressHeaders
  subject : Text
  messageId : Option Text
  inReplyTo : Option Text
  body : BodyRead
deriving DecidableEq, Repr

variable (casing)

/-- The first or the last id in a header. -/
def msgIdOf? (headers : List (Text × Text)) (name : String) (pick : List Text → Option Text) :
    Option (Option Text) :=
  match getHeader headers name with
  | none => some none
  | some raw => (msgIds? raw).map pick

/-- The message that a message replies to. -/
def inReplyToOf? (headers : List (Text × Text)) : Option (Option Text) := do
  match ← msgIdOf? headers "in-reply-to" List.head? with
  | some id => return some id
  | none => msgIdOf? headers "references" List.getLast?

/-- The subject. -/
def subjectOf? (headers : List (Text × Text)) : Option Text :=
  match getHeader headers "subject" with
  | none => some []
  | some subject => decodeHeaderValue? casing subject

/-- The body of `parse_rfc2822`. -/
def parseBody? (headers : List (Text × Text)) (body : Text) : Option BodyRead :=
  let contentType := (getHeader headers "content-type").getD []
  let lower := casing.toLowercase contentType
  if contains lower "multipart/".toList then
    extractMultipart? casing (body.length + 1) body contentType
  else do
    let isPlaintext := lower = [] ∨ contains lower "text/plain".toList
    let decoded ← decodeTransfer? body (lowerHeader casing headers "content-transfer-encoding")
    return ⟨wrapPlainAsHtml decoded lower, [], if isPlaintext then some decoded else none⟩

/-- `parse_rfc2822`. -/
def parseRfc2822? (raw : Text) : Option ParsedMessage := do
  let (headersText, body) ← splitHeadersBody? raw
  let headers := parseHeaders casing headersText
  let sender ← parseMailbox? casing ((getHeader headers "from").getD [])
  let addresses ← addressHeadersOf? casing headers
  let subject ← subjectOf? casing headers
  let messageId ← msgIdOf? headers "message-id" List.head?
  let inReplyTo ← inReplyToOf? headers
  let body ← parseBody? casing headers body
  return { sender, addresses, subject, messageId, inReplyTo, body }

/-- Every parameter that is looked for while a message is read has its position inside. -/
def PartsInside (raw : Text) : Prop :=
  isMultipart (lowerHeader casing (headersOf casing raw) "content-type") = true →
    ∀ level, Relation.ReflTransGen (Nested casing isMultipart)
        ((splitHeadersBody raw).2, (getHeader (headersOf casing raw) "content-type").getD []) level →
      LevelInside casing level

variable {casing}

theorem exists_msgIdOf? (headers : List (Text × Text)) (name : String)
    (pick : List Text → Option Text) : ∃ id, msgIdOf? headers name pick = some id := by
  unfold msgIdOf?
  cases getHeader headers name with
  | none => exact ⟨none, rfl⟩
  | some raw => exact ⟨pick (msgIds raw), congrArg (Option.map pick) (msgIds?_eq raw)⟩

theorem exists_inReplyToOf? (headers : List (Text × Text)) : ∃ id, inReplyToOf? headers = some id := by
  obtain ⟨id, isId⟩ := exists_msgIdOf? headers "in-reply-to" List.head?
  rw [inReplyToOf?, isId, Option.bind_eq_bind, Option.bind_some]
  cases id with
  | none => exact exists_msgIdOf? headers "references" List.getLast?
  | some id => exact ⟨some id, rfl⟩

theorem exists_subjectOf? (headers : List (Text × Text)) : ∃ subject, subjectOf? casing headers = some subject := by
  unfold subjectOf?
  cases getHeader headers "subject" with
  | none => exact ⟨[], rfl⟩
  | some subject => exact ⟨_, decodeHeaderValue?_eq casing subject⟩

theorem isSome_parseBody?_iff {headers : List (Text × Text)} {body : Text} :
    (parseBody? casing headers body).isSome = true ↔
      (isMultipart (lowerHeader casing headers "content-type") = true →
        ∀ level, Relation.ReflTransGen (Nested casing isMultipart)
            (body, (getHeader headers "content-type").getD []) level → LevelInside casing level) := by
  have reads := @isSome_extractMultipart?_iff casing _ body ((getHeader headers "content-type").getD [])
    (Nat.lt_succ_self _)
  unfold parseBody?
  dsimp only
  rw [← lowerHeader, ← reads, isMultipart]
  split
  next several => exact ⟨fun returns _ => returns, fun returns => returns several⟩
  next single =>
    rw [decodeTransfer?_eq]
    exact iff_of_true rfl fun several => absurd several single

theorem isSome_parseRfc2822?_iff {raw : Text} :
    (parseRfc2822? casing raw).isSome = true ↔ PartsInside casing raw := by
  obtain ⟨subject, isSubject⟩ := @exists_subjectOf? casing (headersOf casing raw)
  obtain ⟨messageId, isId⟩ := exists_msgIdOf? (headersOf casing raw) "message-id" List.head?
  obtain ⟨inReplyTo, isParent⟩ := exists_inReplyToOf? (headersOf casing raw)
  rw [PartsInside, ← isSome_parseBody?_iff, parseRfc2822?, splitHeadersBody?_eq, Option.bind_eq_bind,
    Option.bind_some]
  dsimp only
  rw [← headersOf, parseMailbox?_eq, addressHeadersOf?_eq, isSubject, isId, isParent]
  cases parseBody? casing (headersOf casing raw) (splitHeadersBody raw).2 <;> exact Iff.rfl

/-- What is read of a message in its header section alone. -/
theorem headers_of_parseRfc2822? {raw : Text} {parsed : ParsedMessage}
    (read : parseRfc2822? casing raw = some parsed) :
    parsed.addresses = parseAddressHeaders casing raw ∧
      parsed.messageId = (getHeader (headersOf casing raw) "message-id").bind fun id => (msgIds id).head? := by
  obtain ⟨subject, isSubject⟩ := @exists_subjectOf? casing (headersOf casing raw)
  obtain ⟨inReplyTo, isParent⟩ := exists_inReplyToOf? (headersOf casing raw)
  have isId : msgIdOf? (headersOf casing raw) "message-id" List.head? =
      some ((getHeader (headersOf casing raw) "message-id").bind fun id => (msgIds id).head?) := by
    unfold msgIdOf?
    cases getHeader (headersOf casing raw) "message-id" with
    | none => rfl
    | some id => exact congrArg (Option.map List.head?) (msgIds?_eq id)
  rw [parseRfc2822?, splitHeadersBody?_eq, Option.bind_eq_bind, Option.bind_some] at read
  dsimp only at read
  rw [← headersOf, parseMailbox?_eq, addressHeadersOf?_eq, isSubject, isId, isParent] at read
  cases isBody : parseBody? casing (headersOf casing raw) (splitHeadersBody raw).2 with
  | none =>
    rw [isBody] at read
    cases read
  | some body =>
    rw [isBody] at read
    cases read
    exact ⟨rfl, rfl⟩

end Messages

/-- Lower case as the standard library has it for `İ`, which becomes two characters of three bytes
together, one more than it has. -/
def dottedCasing : Casing where
  upperChar := Casing.ascii.upperChar
  toLowercase := fun text => text.flatMap fun char =>
    if char = 'İ' then ['i', Char.ofNat 0x307] else [char.toLower]
  upperChar_ascii := Casing.ascii.upperChar_ascii
  toLowercase_ascii := by
    intro text ascii
    rw [← List.flatMap_pure_eq_map]
    refine List.flatMap_congr fun char mem => if_neg ?_
    rintro rfl
    exact absurd (ascii _ mem) (by decide)

end TutaBridge.Mail
