import TutaBridge.Mail.Bodystructure
import TutaBridge.Std.Recursion

/-!
# How deep parts nest

Both functions that follow a multipart body into its parts call themselves on a section of a
part, with a boundary that the part's own headers name. Every such section is shorter than the
body it was cut from, whatever the boundary is, so the calls go no deeper than the body is long.
-/

namespace TutaBridge.Mail

open TutaBridge.Std TutaBridge.Std.Text TutaBridge.Std.Recursion

/-- The body of a part is shorter than the body the part is cut from. -/
theorem length_partBody_lt {body boundary part : Text} (mem : part ∈ splitMimeParts body boundary) :
    (splitHeadersBody part).2.length < body.length :=
  (length_splitHeadersBody_le part).trans_lt (length_lt_of_mem_splitMimeParts mem)

/-! ## The calls -/

/-- A call of `bodystructure_for`. -/
structure StructureCall where
  contentType : Text
  encoding : Text
  body : Text
  headers : List (Text × Text)

section Calls

variable (casing : Casing)

/-- The loop body of `extract_multipart_body_and_attachments`, with the function it calls for a
part in several parts. -/
def readPartWithin (extract : Text × Text → Option BodyRead) (read : PartsRead) (part : Text) :
    Option PartsRead :=
  let headers := parseHeaders casing (splitHeadersBody part).1
  let contentType := (getHeader headers "content-type").getD []
  if contains (lowerHeader casing headers "content-type") "multipart/".toList then
    (extract ((splitHeadersBody part).2, contentType)).map read.nested
  else some (readPart casing (fun body _ => ⟨body, [], none⟩) read part)

/-- `extract_multipart_body_and_attachments` of a body and its Content-Type, with the function
it calls. -/
def extractCall (extract : Text × Text → Option BodyRead) (call : Text × Text) : Option BodyRead :=
  match extractBoundary casing call.2 with
  | none => some ⟨call.1, [], none⟩
  | some boundary =>
    ((splitMimeParts call.1 boundary).foldlM (readPartWithin casing extract) ⟨none, none, []⟩).map
      fun read => read.finish call.1

/-- `part_structure`, with the function it calls. -/
def partStructureWithin (structureFor : StructureCall → Option Text) (part : Text) : Option Text :=
  let headers := parseHeaders casing (splitHeadersBody part).1
  structureFor
    { contentType := (getHeader headers "content-type").getD "text/plain".toList
      encoding := (getHeader headers "content-transfer-encoding").getD "7bit".toList
      body := (splitHeadersBody part).2
      headers := headers }

/-- `multipart_structure`, with the function it calls for its parts. -/
def multipartStructureWithin (part : Text → Option Text) (contentType body : Text) : Option Text :=
  let boundary := (extractBoundary casing contentType).getD []
  let subtype := (subtypeOf contentType).getD "mixed".toList
  if boundary = [] then
    some ("(\"TEXT\" \"HTML\" (\"CHARSET\" \"UTF-8\") NIL NIL \"7BIT\" ".toList ++
      decimal (Utf8.encode body).length ++ " 0)".toList)
  else
    ((splitMimeParts body boundary).mapM part).map fun parts =>
      '(' :: parts.flatten ++ ' ' :: quoted (casing.toUppercase subtype) ++
        " (\"BOUNDARY\" ".toList ++ quoted boundary ++ "))".toList

/-- `bodystructure_for`, with the function its parts call. -/
def structureCall (structureFor : StructureCall → Option Text) (call : StructureCall) : Option Text :=
  if "multipart/".toList.isPrefixOf (casing.toLowercase call.contentType) then
    multipartStructureWithin casing (partStructureWithin casing structureFor) call.contentType call.body
  else some (singlePartStructure casing call.contentType call.encoding call.body call.headers)

/-! ## What they return -/

/-- What `extract_multipart_body_and_attachments` returns. -/
def extracted (call : Text × Text) : BodyRead :=
  extractMultipart casing (call.1.length + 1) call.1 call.2

/-- What `bodystructure_for` returns. -/
def structured (call : StructureCall) : Text :=
  bodystructureFor casing (call.body.length + 1) call.contentType call.encoding call.body call.headers

variable {casing}

theorem readPartWithin_eq_some {extract : Text × Text → Option BodyRead} {value : Text → Text → BodyRead}
    {part : Text} (isOver : ∀ contentType, extract ((splitHeadersBody part).2, contentType) =
      some (value (splitHeadersBody part).2 contentType)) (read : PartsRead) :
    readPartWithin casing extract read part = some (readPart casing value read part) := by
  unfold readPartWithin readPart
  dsimp only
  split
  next => rw [isOver, Option.map_some]
  next => rfl

/-- A call is over when the calls for its parts are. -/
theorem descends_extractCall : Descends (extractCall casing) (fun call => call.1.length) (extracted casing) := by
  rintro ask ⟨body, contentType⟩ isOver
  rw [extracted, extractMultipart, extractCall]
  dsimp only
  cases extractBoundary casing contentType with
  | none => rfl
  | some boundary =>
    have rounds : ∀ read, ∀ part ∈ splitMimeParts body boundary, readPartWithin casing ask read part =
          some (readPart casing (extractMultipart casing body.length) read part) := by
      intro read part mem
      have shorter := length_partBody_lt mem
      apply readPartWithin_eq_some
      intro contentType
      rw [isOver (_, contentType) shorter, extracted]
      exact congrArg some (extractMultipart_fuel casing (Nat.lt_succ_self _) shorter contentType)
    dsimp only
    rw [foldlM_eq_some rounds, Option.map_some]

theorem partStructureWithin_eq_some {structureFor : StructureCall → Option Text}
    {value : Text → Text → Text → List (Text × Text) → Text} {part : Text} (isOver : ∀ contentType encoding headers,
      structureFor ⟨contentType, encoding, (splitHeadersBody part).2, headers⟩ =
        some (value contentType encoding (splitHeadersBody part).2 headers)) :
    partStructureWithin casing structureFor part = some (partStructure casing value part) :=
  isOver _ _ _

theorem descends_structureCall :
    Descends (structureCall casing) (fun call => call.body.length) (structured casing) := by
  rintro ask ⟨contentType, encoding, body, headers⟩ isOver
  rw [structured, bodystructureFor, structureCall]
  dsimp only
  split
  next =>
    have parts : ∀ boundary, ∀ part ∈ splitMimeParts body boundary, partStructureWithin casing ask part =
          some (partStructure casing (bodystructureFor casing body.length) part) := by
      intro boundary part mem
      have shorter := length_partBody_lt mem
      apply partStructureWithin_eq_some
      intro contentType encoding headers
      rw [isOver ⟨contentType, encoding, _, headers⟩ shorter, structured]
      exact congrArg some
        (bodystructureFor_fuel casing (Nat.lt_succ_self _) shorter contentType encoding headers)
    unfold multipartStructureWithin multipartStructure
    dsimp only
    split
    next => rfl
    next => rw [mapM_eq_some (parts _), Option.map_some, List.flatMap_def]
  next => rfl

/-- The section of every part is shorter than the body it was cut from, and on every input the
two functions return before their calls are as many levels deep as the body has characters, and
one more. -/
theorem multipart_terminates (casing : Casing) : (∀ body boundary, ∀ part ∈ splitMimeParts body boundary,
      part.length < body.length ∧ (splitHeadersBody part).2.length < body.length) ∧
    (∀ (call : Text × Text) (depth : Nat), call.1.length < depth →
      within (extractCall casing) depth call = some (extracted casing call)) ∧
    ∀ (call : StructureCall) (depth : Nat), call.body.length < depth →
      within (structureCall casing) depth call = some (structured casing call) := by
  refine ⟨fun body boundary part mem => ?_, fun call depth enough => ?_, fun call depth enough => ?_⟩
  · exact ⟨length_lt_of_mem_splitMimeParts mem, length_partBody_lt mem⟩
  · exact descends_extractCall.within_eq_some enough
  · exact descends_structureCall.within_eq_some enough

end Calls

/-- A part in a part. -/
def nestedParts : Text :=
  "--a\nContent-Type: multipart/mixed; boundary=b\n\n--b\n\nx\n--b--\n--a--\n".toList

theorem nestedParts_terminates :
    let part := "Content-Type: multipart/mixed; boundary=b\n\n--b\n\nx\n--b--\n".toList
    let call := (nestedParts, "multipart/mixed; boundary=a".toList)
    part ∈ splitMimeParts nestedParts ['a'] ∧ (splitHeadersBody part).2.length < nestedParts.length ∧
      nestedParts.length < 80 ∧ within (extractCall .ascii) 80 call = some (extracted .ascii call) := by
  intro part call
  have isPart : part ∈ splitMimeParts nestedParts ['a'] := by decide +kernel
  have short : nestedParts.length < 80 := by decide +kernel
  have terminates := multipart_terminates .ascii
  exact ⟨isPart, (terminates.1 nestedParts ['a'] part isPart).2, short, terminates.2.1 call 80 short⟩

end TutaBridge.Mail
