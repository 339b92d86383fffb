import TutaBridge.Std.CrlfLines

/-!
# Fetching some header fields

A client asks for header fields by their names, or for all but these. The lines of the header are
kept or not one after the other: a line that continues a field goes with the line before it.
-/

namespace TutaBridge.Imap

open TutaBridge.Std TutaBridge.Std.Text

/-- `parse_header_fields_section`: the section as the client sent it, the names in upper case, and
whether they are the ones left out. ASCII upper case leaves every character in its place. -/
def parseHeaderFieldsSection (items : Text) : Option (Text × List Text × Bool) := do
  let upper := items.map Char.toUpper
  let start ← (before? "HEADER.FIELDS".toList upper).map List.length
  let negate := "HEADER.FIELDS.NOT".toList.isPrefixOf (upper.drop start)
  let opened ← (before? ['('] (upper.drop start)).map fun before => start + before.length
  let closed ← (before? [')'] (upper.drop opened)).map fun before => opened + before.length
  let keyword := if negate then "HEADER.FIELDS.NOT".toList else "HEADER.FIELDS".toList
  let fields := (words ((upper.take closed).drop (opened + 1))).map (trimMatches '"')
  return (keyword ++ ' ' :: (items.take (closed + 1)).drop opened, fields, negate)

/-- A line of a field that another line began. -/
def isContinuation (line : Text) : Bool := [' '].isPrefixOf line || ['\t'].isPrefixOf line

/-- What stands before the colon of a line, or the whole line. -/
def fieldName (line : Text) : Text := trim (line.takeWhile (· ≠ ':'))

section Filter

variable (casing : Casing) (fields : List Text) (negate : Bool)

/-- The loop of `filter_header_fields`, with what was decided for the line before. -/
def keepLines : (keep : Bool) → List Text → Text
  | _, [] => []
  | keep, line :: rest =>
    let keep := if isContinuation line then keep
      else fields.any (fun field => field = casing.toUppercase (fieldName line)) != negate
    (if keep then line else []) ++ keepLines keep rest

/-- `filter_header_fields`. -/
def filterHeaderFields (rfc : Text) : Text :=
  let header := ((before? (crlf ++ crlf) rfc).map (· ++ crlf)).getD rfc
  keepLines casing fields negate false (splitInclusive crlf header) ++ crlf

end Filter

/-! ## Header fields -/

/-- A header field: the line it begins with, and those that continue it. -/
structure HeaderField where
  line : Text
  continuations : List Text
  begins : isContinuation line = false
  continues : ∀ other ∈ continuations, isContinuation other = true

namespace HeaderField

def lines (field : HeaderField) : List Text := field.line :: field.continuations

def name (field : HeaderField) : Text := fieldName field.line

/-- Its name is one of those listed, in any case. -/
def isListed (fields : List Text) (field : HeaderField) : Bool :=
  fields.any fun listed => eqIgnoreAsciiCase listed field.name

end HeaderField

/-- The lines of header fields, each as it stands in a message. -/
def headerText (header : List HeaderField) : Text := crlfLines (header.flatMap HeaderField.lines)

/-- Lines of which the first begins a field are those of header fields. -/
theorem exists_headerFields {first : Text} {rest : List Text} (begins : isContinuation first = false) :
    ∃ header : List HeaderField, header.flatMap HeaderField.lines = first :: rest := by
  induction rest generalizing first with
  | nil => exact ⟨[⟨first, [], begins, List.forall_mem_nil _⟩], rfl⟩
  | cons line rest ih =>
    cases isNext : isContinuation line with
    | false =>
      obtain ⟨header, areLines⟩ := ih isNext
      refine ⟨⟨first, [], begins, List.forall_mem_nil _⟩ :: header, ?_⟩
      rw [List.flatMap_cons, areLines]
      rfl
    | true =>
      obtain ⟨header, areLines⟩ := ih begins
      match header with
      | [] => cases areLines
      | field :: others =>
        rw [List.flatMap_cons, HeaderField.lines, List.cons_append] at areLines
        obtain ⟨rfl, isRest⟩ := List.cons.inj areLines
        refine ⟨⟨field.line, line :: field.continuations, begins, ?_⟩ :: others, ?_⟩
        · exact List.forall_mem_cons.mpr ⟨isNext, field.continues⟩
        · rw [List.flatMap_cons, HeaderField.lines, List.cons_append, List.cons_append, isRest]

/-! ## What is kept -/

section Kept

variable {casing : Casing} {fields : List Text} {negate : Bool}

/-- The ending of a line does not count to its name. -/
theorem fieldName_crlf (line : Text) : fieldName (line ++ crlf) = fieldName line := by
  by_cases colon : ':' ∈ line
  · obtain ⟨before, after, rfl, absent⟩ := List.eq_append_cons_of_mem colon
    have kept : ∀ char ∈ before, decide (char ≠ ':') = true := by
      intro char mem
      rw [decide_eq_true_eq]
      rintro rfl
      exact absent mem
    have stops : ∀ rest : Text, (before ++ ':' :: rest).takeWhile (· ≠ ':') = before := by
      intro rest
      rw [List.takeWhile_append_of_pos kept]
      simp
    rw [fieldName, fieldName, List.append_assoc, List.cons_append, stops, stops]
  · have all : ∀ text : Text, ':' ∉ text → text.takeWhile (· ≠ ':') = text := by
      intro text absent
      rw [List.takeWhile_eq_self_iff]
      intro char mem
      rw [decide_eq_true_eq]
      rintro rfl
      exact absent mem
    rw [fieldName, fieldName, all line colon, all (line ++ crlf) (by simpa using colon)]
    exact trim_append_right (by decide)

theorem isContinuation_crlf (line : Text) : isContinuation (line ++ crlf) = isContinuation line := by
  cases line <;> rfl

/-- A name in upper case is the upper case of another just where the two are equal in any case. -/
theorem eq_upper_iff {field name : Text} (upper : field.map Char.toUpper = field)
    (ascii : ∀ char ∈ name, char.toNat < 128) :
    field = name.map Char.toUpper ↔ eqIgnoreAsciiCase field name = true := by
  constructor
  · rintro rfl
    rw [eqIgnoreAsciiCase, decide_eq_true_eq, List.map_map]
    exact List.map_congr_left fun char mem =>
      @of_ascii (fun char => char.toUpper.toLower = char.toLower) (by decide) char (ascii char mem)
  · intro same
    have lower : ∀ char ∈ name, char.toLower.toNat < 128 := fun char mem =>
      @of_ascii (fun char => char.toLower.toNat < 128) (by decide) char (ascii char mem)
    have raised := Casing.ascii.toUppercase_of_eqIgnoreAsciiCase same lower
    have single : Casing.ascii.toUppercase field = field.map Char.toUpper :=
      List.map_eq_flatMap.symm
    rw [← raised, single, upper]

/-- A listed name is found in upper case just where it is listed in any case. -/
theorem any_upper_eq {name : Text} (ascii : ∀ char ∈ name, char.toNat < 128)
    (upper : ∀ field ∈ fields, field.map Char.toUpper = field) :
    fields.any (fun field => field = casing.toUppercase name) =
      fields.any fun field => eqIgnoreAsciiCase field name := by
  rw [Bool.eq_iff_iff, List.any_eq_true, List.any_eq_true, casing.toUppercase_ascii ascii]
  refine exists_congr fun field => and_congr_right fun mem => ?_
  rw [decide_eq_true_eq, eq_upper_iff (upper field mem) ascii]

/-- Lines that continue a field are kept with it. -/
theorem keepLines_continuations {lines : List Text} (continue' : ∀ line ∈ lines, isContinuation line = true)
    (keep : Bool) (rest : List Text) :
    keepLines casing fields negate keep ((lines.map fun line => line ++ crlf) ++ rest) =
      (if keep then crlfLines lines else []) ++ keepLines casing fields negate keep rest := by
  induction lines with
  | nil => cases keep <;> rfl
  | cons line later ih =>
    obtain ⟨first, others⟩ := List.forall_mem_cons.mp continue'
    rw [List.map_cons, List.cons_append, keepLines, isContinuation_crlf, if_pos first, ih others]
    cases keep <;> simp

/-- A field is kept with all its lines, or none of them is. -/
theorem keepLines_field {field : HeaderField} (ascii : ∀ char ∈ field.name, char.toNat < 128)
    (upper : ∀ listed ∈ fields, listed.map Char.toUpper = listed) (keep : Bool) (rest : List Text) :
    keepLines casing fields negate keep ((field.lines.map fun line => line ++ crlf) ++ rest) =
      (if field.isListed fields != negate then crlfLines field.lines else []) ++
        keepLines casing fields negate (field.isListed fields != negate) rest := by
  have decided : (fields.any fun listed => listed = casing.toUppercase (fieldName (field.line ++ crlf))) =
      field.isListed fields := by
    rw [fieldName_crlf]
    exact any_upper_eq ascii upper
  rw [HeaderField.lines, List.map_cons, List.cons_append, keepLines, isContinuation_crlf, field.begins,
    if_neg Bool.false_ne_true, decided, keepLines_continuations field.continues]
  cases field.isListed fields != negate <;> simp

/-- The fields kept are those listed, or all but these. -/
theorem keepLines_headerFields {header : List HeaderField}
    (ascii : ∀ field ∈ header, ∀ char ∈ field.name, char.toNat < 128)
    (upper : ∀ listed ∈ fields, listed.map Char.toUpper = listed) (keep : Bool) :
    keepLines casing fields negate keep ((header.flatMap HeaderField.lines).map fun line => line ++ crlf) =
      headerText (header.filter fun field => field.isListed fields != negate) := by
  induction header generalizing keep with
  | nil => rfl
  | cons field rest ih =>
    obtain ⟨first, others⟩ := List.forall_mem_cons.mp ascii
    rw [List.flatMap_cons, List.map_append, keepLines_field first upper, ih others, List.filter_cons]
    cases field.isListed fields != negate with
    | true => simp [headerText]
    | false => simp [headerText]

end Kept

section Partition

variable (casing : Casing) {first : Text} {rest : List Text}

/-- The lines of any header are those of header fields, and for every list of names in upper case
the fields listed and all others are what is answered, in their order and unchanged, each with one
blank line behind it. -/
theorem filterHeaderFields_partition (areLines : ∀ line ∈ first :: rest, IsCrlfLine line)
    (begins : isContinuation first = false) (ascii : ∀ line ∈ first :: rest, isContinuation line = false →
      ∀ char ∈ fieldName line, char.toNat < 128) :
    ∃ header : List HeaderField, header.flatMap HeaderField.lines = first :: rest ∧
      ∀ (fields : List Text) (body : Text), (∀ field ∈ fields, field.map Char.toUpper = field) →
        filterHeaderFields casing fields false (crlfLines (first :: rest) ++ crlf ++ body) =
            headerText (header.filter fun field => field.isListed fields) ++ crlf ∧
          filterHeaderFields casing fields true (crlfLines (first :: rest) ++ crlf ++ body) =
            headerText (header.filter fun field => !field.isListed fields) ++ crlf := by
  obtain ⟨header, areFields⟩ := @exists_headerFields first rest begins
  have asciiNames : ∀ field ∈ header, ∀ char ∈ field.name, char.toNat < 128 := by
    intro field mem
    have isLine : field.line ∈ first :: rest := by
      rw [← areFields]
      exact List.mem_flatMap.mpr ⟨field, mem, List.mem_cons_self⟩
    exact ascii field.line isLine field.begins
  have both : ∀ (fields : List Text) (negate : Bool) (body : Text),
      (∀ field ∈ fields, field.map Char.toUpper = field) →
        filterHeaderFields casing fields negate (crlfLines (first :: rest) ++ crlf ++ body) =
          headerText (header.filter fun field => field.isListed fields != negate) ++ crlf := by
    intro fields negate body upper
    rw [filterHeaderFields, before?_crlfLines (List.cons_ne_nil first rest) areLines, Option.getD_some,
      splitInclusive_crlfLines areLines, ← areFields, keepLines_headerFields asciiNames upper]
  refine ⟨header, areFields, fun fields body upper => ⟨?_, ?_⟩⟩
  · simpa using both fields false body upper
  · simpa using both fields true body upper

end Partition

/-- A folded field goes with its continuation. -/
theorem filterHeaderFields_folded :
    ∃ header : List HeaderField, header.flatMap HeaderField.lines = [['A', ':'], [' ', 'a'], ['B', ':']] ∧
      filterHeaderFields .ascii [['A']] false (crlfLines [['A', ':'], [' ', 'a'], ['B', ':']] ++ crlf ++ ['x']) =
          headerText (header.filter fun field => field.isListed [['A']]) ++ crlf ∧
        filterHeaderFields .ascii [['A']] true (crlfLines [['A', ':'], [' ', 'a'], ['B', ':']] ++ crlf ++ ['x']) =
          headerText (header.filter fun field => !field.isListed [['A']]) ++ crlf := by
  have areLines : ∀ line ∈ [['A', ':'], [' ', 'a'], ['B', ':']], IsCrlfLine line := by
    have unbroken : ∀ line ∈ [['A', ':'], [' ', 'a'], ['B', ':']], line ≠ [] ∧ '\r' ∉ line := by decide
    intro line mem
    obtain ⟨notEmpty, noReturn⟩ := unbroken line mem
    exact ⟨notEmpty, fun broken => noReturn (broken.subset List.mem_cons_self)⟩
  have ascii : ∀ line ∈ [['A', ':'], [' ', 'a'], ['B', ':']], ∀ char ∈ fieldName line, char.toNat < 128 := by
    decide
  obtain ⟨header, areFields, answers⟩ :=
    filterHeaderFields_partition .ascii areLines rfl fun line mem _ => ascii line mem
  exact ⟨header, areFields, answers [['A']] ['x'] (by decide)⟩

end TutaBridge.Imap
