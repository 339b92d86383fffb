import TutaBridge.Mail.SlicedParts

/-!
# No slice panics

The structure of a message and the text that is indexed, by the slices they take, and when no
function that reads a message panics: each position that is found in lower case has to be that of
a character of the text it is found for.
-/

namespace TutaBridge.Mail

open TutaBridge.Std TutaBridge.Std.Text TutaBridge.Std.Recursion

section Messages

variable {casing : Casing}

/-! ## The body structure -/

/-- `unquote` of a parameter. -/
def unquoteParameter? (text : Text) : Option Text :=
  let trimmed := trim text
  if trimmed.head? = some '"' ∧ trimmed.getLast? = some '"' ∧ 2 ≤ byteLength trimmed then
    slice? 1 (byteLength trimmed - 1) trimmed
  else some trimmed

/-- A `key=value` with neither of them empty. -/
def parameterPair? (raw : Text) : Option (Option (Text × Text)) :=
  let item := trim raw
  match find ['='] item with
  | none => some none
  | some position => do
      let key := trim (← sliceTo? position item)
      let value ← unquoteParameter? (trim (← sliceFrom? (position + 1) item))
      return if key ≠ [] ∧ value ≠ [] then some (key, value) else none

/-- The loop of `build_params` and `build_disposition`. -/
def parameterPairs? (value : Text) : Option (List (Text × Text)) :=
  ((value.splitOn ';').tail.mapM parameterPair?).map fun pairs => pairs.filterMap id

variable (casing)

/-- `build_disposition`. -/
def buildDisposition? (headers : List (Text × Text)) : Option (Option Text) :=
  match getHeader headers "content-disposition" with
  | none => some none
  | some disposition =>
    let head := valueHead disposition
    if head = [] then some none
    else
      (parameterPairs? disposition).map fun pairs =>
        some ('(' :: quoted (casing.toUppercase head) ++ ' ' :: parameterList casing pairs ++ [')'])

/-- `single_part_structure`. -/
def singlePartStructure? (contentType encoding body : Text) (headers : List (Text × Text)) : Option Text := do
  let type := parseTypeSubtype contentType
  let params := parameterList casing (← parameterPairs? contentType)
  let lines :=
    if eqIgnoreAsciiCase type.1 "text".toList then ' ' :: decimal (countLines body) else []
  let extension :=
    match ← buildDisposition? casing headers with
    | some disposition => " NIL ".toList ++ disposition
    | none => []
  return '(' :: quoted (casing.toUppercase type.1) ++ ' ' :: quoted (casing.toUppercase type.2) ++
    ' ' :: params ++ " NIL NIL ".toList ++
    quoted (casing.toUppercase encoding) ++ ' ' :: decimal (Utf8.encode body).length ++ lines ++
    extension ++ [')']

/-- `multipart_structure`, with the function for its parts. -/
def multipartStructure? (part : Text → Option Text) (contentType body : Text) : Option Text := do
  let boundary := (← extractBoundary? casing contentType).getD []
  let subtype := (subtypeOf contentType).getD "mixed".toList
  if boundary = [] then
    return "(\"TEXT\" \"HTML\" (\"CHARSET\" \"UTF-8\") NIL NIL \"7BIT\" ".toList ++
      decimal (Utf8.encode body).length ++ " 0)".toList
  else
    let parts ← (splitMimeParts body boundary).mapM part
    return '(' :: parts.flatten ++ ' ' :: quoted (casing.toUppercase subtype) ++
      " (\"BOUNDARY\" ".toList ++ quoted boundary ++ "))".toList

/-- `part_structure`, with the function for its headers and its body. -/
def partStructure? (structureFor : Text → Text → Text → List (Text × Text) → Option Text)
    (part : Text) : Option Text := do
  let (headersText, body) ← splitHeadersBody? part
  let headers := parseHeaders casing headersText
  structureFor ((getHeader headers "content-type").getD "text/plain".toList)
    ((getHeader headers "content-transfer-encoding").getD "7bit".toList) body headers

/-- `bodystructure_for`. A part is shorter than the body it is cut from, so more fuel than the
body is long is never used up. -/
def bodystructureFor? : Nat → Text → Text → Text → List (Text × Text) → Option Text
  | 0, contentType, encoding, body, headers =>
    singlePartStructure? casing contentType encoding body headers
  | fuel + 1, contentType, encoding, body, headers =>
    if "multipart/".toList.isPrefixOf (casing.toLowercase contentType) then
      multipartStructure? casing (partStructure? casing (bodystructureFor? fuel)) contentType body
    else singlePartStructure? casing contentType encoding body headers

/-- `compute_bodystructure`. -/
def computeBodystructure? (raw : Text) : Option Text := do
  let (headersText, body) ← splitHeadersBody? raw
  let headers := parseHeaders casing headersText
  bodystructureFor? casing (body.length + 1)
    ((getHeader headers "content-type").getD "text/html; charset=UTF-8".toList)
    ((getHeader headers "content-transfer-encoding").getD "7bit".toList) body headers

/-- The type of a part in several parts, and of a message, in its structure. -/
def beginsMultipart (lower : Text) : Bool := "multipart/".toList.isPrefixOf lower

/-- Every boundary that is looked for while the structure of a message is written has its position
inside. -/
def BoundariesInside (raw : Text) : Prop :=
  beginsMultipart (lowerHeader casing (headersOf casing raw) "content-type") = true →
    ∀ level, Relation.ReflTransGen (Nested casing beginsMultipart)
        ((splitHeadersBody raw).2, (getHeader (headersOf casing raw) "content-type").getD []) level →
      NeedleInside casing "boundary=".toList level.2

variable {casing}

theorem unquoteParameter?_eq (text : Text) : unquoteParameter? text = some (unquoteParameter text) := by
  have size : '"'.utf8Size = 1 := by decide
  unfold unquoteParameter? unquoteParameter
  dsimp only
  generalize trim text = trimmed
  by_cases quotes : trimmed.head? = some '"' ∧ trimmed.getLast? = some '"'
  · obtain ⟨isFirst, isLast⟩ := quotes
    obtain ⟨rest, rfl⟩ := List.head?_eq_some_iff.mp isFirst
    cases rest using List.reverseRecOn with
    | nil => simp [size]
    | append_singleton inner last =>
      have same : last = '"' := by
        rw [← List.cons_append, List.getLast?_concat] at isLast
        exact Option.some.inj isLast
      subst same
      have slice : slice? 1 (byteLength ('"' :: (inner ++ ['"'])) - 1) ('"' :: (inner ++ ['"'])) =
          some inner := by
        have split : '"' :: (inner ++ ['"']) = ['"'] ++ inner ++ ['"'] := by simp
        refine slice?_of_eq split (by decide) ?_
        simp only [byteLength_append, byteLength_cons, byteLength_nil, size]
        omega
      have bytes : 2 ≤ byteLength ('"' :: (inner ++ ['"'])) := by
        simp only [byteLength_append, byteLength_cons, byteLength_nil, size]
        omega
      rw [if_pos ⟨isFirst, isLast, bytes⟩, if_pos ⟨isFirst, isLast, by simp⟩, slice, List.tail_cons,
        List.dropLast_concat]
  · rw [if_neg fun all => quotes ⟨all.1, all.2.1⟩, if_neg fun all => quotes ⟨all.1, all.2.1⟩]

theorem parameterPair?_eq (raw : Text) : parameterPair? raw = some (parameterPair raw) := by
  unfold parameterPair? parameterPair
  dsimp only
  by_cases marked : '=' ∈ trim raw
  · obtain ⟨key, value, isItem, absent⟩ := exists_first marked
    have behind : byteLength (key ++ ['=']) = byteLength key + 1 := by
      rw [byteLength_append]
      rfl
    rw [isItem, find_char absent, splitOnce_append absent, Option.bind_some]
    dsimp only
    rw [sliceTo?_append, sliceFrom?_of_eq (List.append_cons key '=' value) behind]
    simp only [Option.bind_eq_bind, Option.bind_some, unquoteParameter?_eq]
    rfl
  · rw [find_char_eq_none marked, splitOnce_eq_none marked]
    rfl

theorem parameterPairs?_eq (value : Text) : parameterPairs? value = some (parameterPairs value) := by
  rw [parameterPairs?, mapM_eq_some fun item _ => parameterPair?_eq item, Option.map_some, List.filterMap_map]
  rfl

theorem buildDisposition?_eq (headers : List (Text × Text)) :
    buildDisposition? casing headers = some (buildDisposition casing headers) := by
  unfold buildDisposition? buildDisposition
  cases getHeader headers "content-disposition" with
  | none => rfl
  | some disposition =>
    dsimp only
    rw [parameterPairs?_eq, Option.bind_some]
    split <;> rfl

/-- The structure of a single part takes no slice that may fail. -/
theorem singlePartStructure?_eq (contentType encoding body : Text) (headers : List (Text × Text)) :
    singlePartStructure? casing contentType encoding body headers =
      some (singlePartStructure casing contentType encoding body headers) := by
  rw [singlePartStructure?, parameterPairs?_eq, buildDisposition?_eq]
  rfl

/-- A type that is assumed where a header is missing is that of a single part. -/
theorem assumed_type_iff {assumed : Text} (ascii : ∀ char ∈ assumed, char.toNat < 128)
    (single : beginsMultipart (assumed.map Char.toLower) = false) (holds : Text → Prop)
    (headers : List (Text × Text)) :
    (beginsMultipart (casing.toLowercase ((getHeader headers "content-type").getD assumed)) = true →
        holds ((getHeader headers "content-type").getD assumed)) ↔
      (beginsMultipart (lowerHeader casing headers "content-type") = true →
        holds ((getHeader headers "content-type").getD [])) := by
  rw [lowerHeader]
  cases getHeader headers "content-type" with
  | some contentType => exact Iff.rfl
  | none =>
    have nothing : beginsMultipart (casing.toLowercase []) = false := by
      rw [casing.toLowercase_ascii [] fun char mem => absurd mem List.not_mem_nil]
      decide
    rw [Option.getD_none, Option.getD_none, casing.toLowercase_ascii assumed ascii, single, nothing]
    exact iff_of_true (fun several => absurd several Bool.false_ne_true)
      fun several => absurd several Bool.false_ne_true

/-- The structure of a body is written without a panic when every boundary in it has its position
inside. -/
theorem isSome_bodystructureFor?_iff {fuel : Nat} {body : Text} (contentType encoding : Text)
    (headers : List (Text × Text)) (enough : body.length < fuel) :
    (bodystructureFor? casing fuel contentType encoding body headers).isSome = true ↔
      (beginsMultipart (casing.toLowercase contentType) = true →
        ∀ level, Relation.ReflTransGen (Nested casing beginsMultipart) (body, contentType) level →
          NeedleInside casing "boundary=".toList level.2) := by
  induction fuel generalizing body contentType encoding headers with
  | zero => exact absurd enough (Nat.not_lt_zero _)
  | succ fuel ih =>
    rw [bodystructureFor?, ← beginsMultipart]
    cases several : beginsMultipart (casing.toLowercase contentType) with
    | false =>
      rw [if_neg Bool.false_ne_true, singlePartStructure?_eq]
      exact iff_of_true rfl fun isTrue => absurd isTrue Bool.false_ne_true
    | true =>
      have part : ∀ part, (splitHeadersBody part).2.length < fuel →
          ((partStructure? casing (bodystructureFor? casing fuel) part).isSome = true ↔
            (beginsMultipart (lowerHeader casing (headersOf casing part) "content-type") = true →
              ∀ level, Relation.ReflTransGen (Nested casing beginsMultipart) ((splitHeadersBody part).2,
                (getHeader (headersOf casing part) "content-type").getD []) level →
                  NeedleInside casing "boundary=".toList level.2)) := by
        intro part shorter
        rw [partStructure?, splitHeadersBody?_eq, Option.bind_eq_bind, Option.bind_some]
        dsimp only
        rw [← headersOf, ih _ _ _ shorter]
        exact assumed_type_iff (forall_ascii (by decide)) (by decide) (fun contentType =>
          ∀ level, Relation.ReflTransGen (Nested casing beginsMultipart)
            ((splitHeadersBody part).2, contentType) level → NeedleInside casing "boundary=".toList level.2) _
      rw [if_pos rfl, forall_reached_iff, multipartStructure?, extractBoundary?, imp_iff_right rfl]
      rcases @parameterValue?_cases casing "boundary=".toList contentType with
        ⟨read, outside⟩ | ⟨inside, read, noValue⟩ | ⟨boundary, inside, read, isValue⟩
      · rw [read]
        exact iff_of_false Bool.false_ne_true fun both => outside both.1
      · rw [read]
        refine iff_of_true rfl ⟨inside, ?_⟩
        rintro second ⟨other, hasValue, -⟩
        exact absurd hasValue (noValue other)
      · have hasValue := (isValue boundary).mpr rfl
        have rounds := @isSome_mapM_iff _ _ (partStructure? casing (bodystructureFor? casing fuel))
          (splitMimeParts body boundary)
        rw [read, Option.bind_eq_bind, Option.bind_some]
        dsimp only
        rw [Option.getD_some, if_neg hasValue.1, Option.bind_eq_bind]
        refine Iff.trans ?_ (rounds.trans ?_)
        · cases (splitMimeParts body boundary).mapM
            (partStructure? casing (bodystructureFor? casing fuel)) <;> exact Iff.rfl
        · constructor
          · intro all
            refine ⟨inside, ?_⟩
            rintro second ⟨other, isOther, inner, mem, nested, rfl⟩
            rw [(isValue other).mp isOther] at mem
            have shorter : (splitHeadersBody inner).2.length < body.length := length_partBody_lt mem
            exact (part inner (by omega)).mp (all inner mem) nested
          · rintro ⟨-, later⟩ inner mem
            have shorter : (splitHeadersBody inner).2.length < body.length := length_partBody_lt mem
            exact (part inner (by omega)).mpr fun nested =>
              later _ ⟨boundary, hasValue, inner, mem, nested, rfl⟩

theorem isSome_computeBodystructure?_iff {raw : Text} :
    (computeBodystructure? casing raw).isSome = true ↔ BoundariesInside casing raw := by
  rw [computeBodystructure?, splitHeadersBody?_eq, Option.bind_eq_bind, Option.bind_some]
  dsimp only
  rw [← headersOf, isSome_bodystructureFor?_iff _ _ _ (Nat.lt_succ_self _)]
  exact assumed_type_iff (forall_ascii (by decide)) (by decide) (fun contentType =>
    ∀ level, Relation.ReflTransGen (Nested casing beginsMultipart)
      ((splitHeadersBody raw).2, contentType) level → NeedleInside casing "boundary=".toList level.2) _

/-! ## The text that is indexed -/

variable (casing)

/-- `extract_body_text`. -/
def extractBodyText? (rfc : Text) : Option Text :=
  let lower := casing.toLowercase rfc
  match (find "text/html".toList lower).or (find "text/plain".toList lower) with
  | none => some []
  | some partStart => do
      match find blankLine (← sliceFrom? partStart rfc) with
      | none => return []
      | some separator =>
        let bodyStart := partStart + separator + 4
        let bodyEnd := ((find "\r\n--".toList (← sliceFrom? bodyStart rfc)).map fun position =>
          bodyStart + position).getD (byteLength rfc)
        let raw ← slice? bodyStart bodyEnd rfc
        match decodeBase64Lines raw with
        | some bytes => return stripHtml (Utf8.decodeLossy bytes)
        | none => return stripHtml raw

/-- Behind the part's start every position is found where it is used. -/
theorem extractBodyText?_eq (rfc : Text) : extractBodyText? casing rfc = extractBodyText casing rfc := by
  unfold extractBodyText? extractBodyText
  dsimp only
  generalize (find "text/html".toList (casing.toLowercase rfc)).or
    (find "text/plain".toList (casing.toLowercase rfc)) = found
  cases found with
  | none => rfl
  | some partStart =>
    dsimp only
    cases sliced : splitAt? partStart rfc with
    | none =>
      rw [sliceFrom?, sliced]
      rfl
    | some parts =>
      obtain ⟨front, behind⟩ := parts
      obtain ⟨rfl, rfl⟩ := splitAt?_eq_some_iff.mp sliced
      rw [sliceFrom?_append]
      simp only [Option.bind_eq_bind, Option.bind_some, Option.map_some]
      rw [textBehind, find]
      generalize "\r\n--".toList = ending
      cases isHead : before? blankLine behind with
      | none => rfl
      | some head =>
        obtain ⟨body, rfl⟩ := prefix_of_before? isHead
        have isStart : byteLength (front ++ (head ++ blankLine)) =
            byteLength front + byteLength head + 4 := by
          have blank : byteLength blankLine = 4 := by decide
          rw [byteLength_append, byteLength_append, blank, Nat.add_assoc]
        have split : front ++ (head ++ blankLine ++ body) = front ++ (head ++ blankLine) ++ body := by
          simp only [List.append_assoc]
        have dropped : (head ++ blankLine ++ body).drop (head.length + blankLine.length) = body := by
          rw [← List.length_append, List.drop_left]
        rw [Option.map_some]
        dsimp only
        rw [sliceFrom?_of_eq split isStart, Option.bind_some, dropped, find]
        cases isEnd : before? ending body with
        | none =>
          have whole : slice? (byteLength front + byteLength head + 4)
              (byteLength (front ++ (head ++ blankLine ++ body)))
              (front ++ (head ++ blankLine ++ body)) = some body :=
            slice?_of_eq (split.trans (List.append_nil _).symm) isStart
              (by rw [split, byteLength_append (front ++ (head ++ blankLine))])
          rw [Option.map_none, Option.map_none, Option.getD_none, Option.getD_none, whole, Option.bind_some]
          cases decodeBase64Lines body <;> rfl
        | some raw =>
          obtain ⟨later, isBody⟩ := prefix_of_before? isEnd
          have part : slice? (byteLength front + byteLength head + 4)
              (byteLength front + byteLength head + 4 + byteLength raw)
              (front ++ (head ++ blankLine ++ body)) = some raw := by
            have splitBody : front ++ (head ++ blankLine ++ body) =
                front ++ (head ++ blankLine) ++ raw ++ (ending ++ later) := by
              rw [split, ← isBody]
              simp only [List.append_assoc]
            exact slice?_of_eq splitBody isStart (by rw [isStart])
          rw [Option.map_some, Option.map_some, Option.getD_some, Option.getD_some, part, Option.bind_some]
          cases decodeBase64Lines raw <;> rfl

/-- The first `text/html` of a message in lower case, or without one the first `text/plain`, has
the position of a character of the message. -/
def TextInside (raw : Text) : Prop :=
  (∀ position, IsFirst "text/html".toList position (casing.toLowercase raw) → IsCharBoundary position raw) ∧
    ∀ position, ¬ "text/html".toList <:+: casing.toLowercase raw →
      IsFirst "text/plain".toList position (casing.toLowercase raw) → IsCharBoundary position raw

variable {casing}

theorem isSome_extractBodyText?_iff {raw : Text} :
    (extractBodyText? casing raw).isSome = true ↔ TextInside casing raw := by
  rw [extractBodyText?_eq]
  unfold extractBodyText TextInside
  dsimp only
  simp only [← find_eq_some_iff, ← find_eq_none_iff]
  generalize find "text/html".toList (casing.toLowercase raw) = html
  generalize find "text/plain".toList (casing.toLowercase raw) = plain
  cases html with
  | some first =>
    rw [Option.some_or]
    dsimp only
    rw [Option.isSome_map, isSome_sliceFrom?_iff]
    constructor
    · intro inside
      exact ⟨fun position found => Option.some.inj found ▸ inside, fun position absent => (nomatch absent)⟩
    · intro both
      exact both.1 first rfl
  | none =>
    rw [Option.none_or]
    cases plain with
    | none => exact iff_of_true rfl ⟨fun position found => (nomatch found), fun position _ found => (nomatch found)⟩
    | some first =>
      dsimp only
      rw [Option.isSome_map, isSome_sliceFrom?_iff]
      constructor
      · intro inside
        exact ⟨fun position found => (nomatch found),
          fun position _ found => Option.some.inj found ▸ inside⟩
      · intro both
        exact both.2 first rfl rfl

/-! ## No slice panics -/

variable (casing)

/-- None of the functions that read a message slices it out of its range or inside a character. -/
structure NeverPanics (raw : Text) : Prop where
  message : (parseRfc2822? casing raw).isSome = true
  addresses : (parseAddressHeaders? casing raw).isSome = true
  bodystructure : (computeBodystructure? casing raw).isSome = true
  bodyText : (extractBodyText? casing raw).isSome = true

/-- A message is read without a panic exactly when what is looked for in the lower case of a header,
and of the message, has the position of a character there. -/
theorem neverPanics_iff (raw : Text) : NeverPanics casing raw ↔
      PartsInside casing raw ∧ BoundariesInside casing raw ∧ TextInside casing raw := by
  constructor
  · intro never
    exact ⟨isSome_parseRfc2822?_iff.mp never.message, isSome_computeBodystructure?_iff.mp never.bodystructure,
      isSome_extractBodyText?_iff.mp never.bodyText⟩
  · rintro ⟨parts, boundaries, text⟩
    exact {
      message := isSome_parseRfc2822?_iff.mpr parts
      addresses := Option.isSome_of_eq_some (parseAddressHeaders?_eq casing raw)
      bodystructure := isSome_computeBodystructure?_iff.mpr boundaries
      bodyText := isSome_extractBodyText?_iff.mpr text }

end Messages

/-- A boundary that is named last ends behind the end of its header. -/
theorem dotted_type_panics :
    ¬ NeverPanics dottedCasing "Content-Type: multipart/İ; boundary=\r\n\r\n".toList := by
  intro never
  have panics : parseRfc2822? dottedCasing "Content-Type: multipart/İ; boundary=\r\n\r\n".toList =
      none := by decide +kernel
  have returns := never.message
  rw [panics] at returns
  cases returns

end TutaBridge.Mail
