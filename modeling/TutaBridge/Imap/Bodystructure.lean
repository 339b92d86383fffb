import TutaBridge.Imap.Envelope
import TutaBridge.Mail.MailStructure

/-!
# Body structures in a response

How a client reads a body structure, by the formal syntax of RFC 3501: a part with its type, its
parameters, its encoding and its size, the lines of a text behind them, and several parts in
parentheses. The fields behind a disposition are left out, for none is ever written.
-/

namespace TutaBridge.Imap

open TutaBridge.Std TutaBridge.Std.Text Tuta TutaBridge.Mail

variable {pairs : List (Text × Text)} {α : Type}

/-! ## What a client reads -/

abbrev Parameters := List (Octets × Octets)

/-- `body-fields`. -/
structure BodyFields where
  parameters : Parameters
  id : Option Octets
  description : Option Octets
  encoding : Octets
  size : Nat
deriving DecidableEq, Repr

/-- `body-ext-1part`, as far as the disposition. -/
structure BodyExtension where
  md5 : Option Octets
  disposition : Option (Octets × Parameters)
deriving DecidableEq, Repr

/-- A `body`. Only a text has lines. -/
inductive Body where
  | single (type subtype : Octets) (fields : BodyFields) (lines : Option Nat) (extension : BodyExtension)
  | message (fields : BodyFields) (envelope : Envelope) (body : Body) (lines : Nat)
      (extension : BodyExtension)
  | multi (parts : List Body) (subtype : Octets) (parameters : Parameters)

/-- `string`. -/
def readString : Reader UInt8 Octets := do
  let content ← readNString
  match content with
  | some content => return content
  | none => failure

def readParameter : Reader UInt8 (Octets × Octets) := do
  let name ← readString
  let value ← spaced readString
  return (name, value)

/-- `body-fld-param`. -/
def readParameters : Reader UInt8 Parameters :=
  Reader.before 40 (do
    Reader.expect (asciiOctets ['('])
    let first ← readParameter
    let later ← Reader.items 32 (spaced readParameter)
    Reader.expect (asciiOctets [')'])
    return first :: later) (do
    readNil
    return [])

/-- `body-fields`. -/
def readBodyFields : Reader UInt8 BodyFields := do
  let parameters ← readParameters
  let id ← spaced readNString
  let description ← spaced readNString
  let encoding ← spaced readString
  let size ← spaced readNumber
  return ⟨parameters, id, description, encoding, size⟩

/-- `body-fld-dsp`. -/
def readDisposition : Reader UInt8 (Option (Octets × Parameters)) :=
  Reader.before 40 (do
    Reader.expect (asciiOctets ['('])
    let kind ← readString
    let parameters ← spaced readParameters
    Reader.expect (asciiOctets [')'])
    return some (kind, parameters)) (do
    readNil
    return none)

/-- `body-ext-1part` behind its space, where there is one. -/
def readExtension : Reader UInt8 BodyExtension :=
  Reader.before 32 (do
    let md5 ← spaced readNString
    let disposition ← Reader.before 32 (spaced readDisposition) (return none)
    return ⟨md5, disposition⟩) (return ⟨none, none⟩)

/-- The same word, in upper or lower case. -/
def isWord (word : String) (octets : Octets) : Bool :=
  octets.map (fun octet => (Char.ofNat octet.toNat).toLower) = word.toList

/-- `media-message`. -/
def isMessage (type subtype : Octets) : Bool := isWord "message" type && isWord "rfc822" subtype

/-- `body-type-text`, `body-type-msg` or `body-type-basic`. -/
def readSingle (inner : Reader UInt8 Body) : Reader UInt8 Body := do
  let type ← readString
  let subtype ← spaced readString
  let fields ← spaced readBodyFields
  if isWord "text" type then
    let lines ← spaced readNumber
    let extension ← readExtension
    return .single type subtype fields (some lines) extension
  else if isMessage type subtype then
    let envelope ← spaced readEnvelope
    let body ← spaced inner
    let lines ← spaced readNumber
    let extension ← readExtension
    return .message fields envelope body lines extension
  else
    let extension ← readExtension
    return .single type subtype fields none extension

/-- `body-type-mpart`, with its parameters where they are given. -/
def readMulti (inner : Reader UInt8 Body) : Reader UInt8 Body := do
  let parts ← Reader.items 40 inner
  let subtype ← spaced readString
  let parameters ← Reader.before 32 (spaced readParameters) (return [])
  return .multi parts subtype parameters

/-- `body`, with fuel for the parentheses in each other. -/
def readStructure : (fuel : Nat) → Reader UInt8 Body
  | 0 => failure
  | fuel + 1 => do
      Reader.expect (asciiOctets ['('])
      let body ← Reader.before 40 (readMulti (readStructure fuel)) (readSingle (readStructure fuel))
      Reader.expect (asciiOctets [')'])
      return body

/-- A body structure and nothing behind it. -/
def readBodystructure (octets : Octets) : Option Body :=
  match readStructure octets.length octets with
  | some (body, []) => some body
  | _ => none

/-! ## Strings and parameters -/

theorem quoted_eq (text : Text) : Mail.quoted text = Imap.quoted text := by
  have escaped : (fun char => if char = '\\' ∨ char = '"' then ['\\', char] else [char]) =
      escapeChar := by
    funext char
    exact if_congr or_comm rfl rfl
  rw [Mail.quoted, escaped, Imap.quoted]

/-- A text of characters that may stand in quotes. -/
def IsQuotableText (text : Text) : Prop := ∀ char ∈ text, IsQuotable char

theorem reads_string {text : Text} (quotable : IsQuotableText text) :
    Reader.Reads readString (Utf8.encode (Mail.quoted text)) (Utf8.encode text) := by
  have ascii : ∀ char ∈ text, char.toNat < 0x80 := fun char mem => (quotable char mem).2.1
  rw [quoted_eq, encode_octets (ascii_quoted ascii), encode_octets ascii]
  exact (reads_quoted quotable).guarded (Reader.Reads.pure _)

theorem reads_null : Reader.Reads readNil (Utf8.encode "NIL".toList) () := fun _ => rfl

theorem reads_space {field : Reader UInt8 α} {written : Octets} {value : α}
    (reads : Reader.Reads field written value) : Reader.Reads (spaced field) (32 :: written) value :=
  reads_spaced reads

theorem answers_space {field : Reader UInt8 α} {written : Octets} {follows : Octets → Prop}
    {answer : Option α} (answers : Reader.Answers field written follows answer) :
    Reader.Answers (spaced field) (32 :: written) follows answer :=
  (Reader.reads_expect (asciiOctets [' '])).andThen answers

theorem head?_quoted (text : Text) : (Utf8.encode (Mail.quoted text)).head? = some 34 := by
  rw [Mail.quoted, Utf8.encode_cons_ascii (by decide)]
  rfl

section Written

variable (casing : Casing)

/-- The parameters a client is to read. -/
def parametersOf (pairs : List (Text × Text)) : Parameters :=
  pairs.map fun pair => (Utf8.encode (casing.toUppercase pair.1), Utf8.encode pair.2)

/-- Names and values that may stand in quotes. -/
def QuotablePairs (pairs : List (Text × Text)) : Prop :=
  ∀ pair ∈ pairs, IsQuotableText (casing.toUppercase pair.1) ∧ IsQuotableText pair.2

/-- A parameter as it is written. -/
def writtenPair (pair : Text × Text) : Text :=
  Mail.quoted (casing.toUppercase pair.1) ++ ' ' :: Mail.quoted pair.2

theorem intercalate_cons (separator first : Text) (rest : List Text) :
    separator.intercalate (first :: rest) = first ++ rest.flatMap fun part => separator ++ part := by
  induction rest generalizing first with
  | nil => simp
  | cons second rest ih =>
    rw [List.intercalate_cons_cons, ih, List.flatMap_cons]
    simp

theorem encode_flatMap (items : List α) (write : α → Text) :
    Utf8.encode (items.flatMap write) = items.flatMap fun item => Utf8.encode (write item) := by
  induction items with
  | nil => rfl
  | cons first rest ih =>
    rw [List.flatMap_cons, List.flatMap_cons, Utf8.encode_append, ih]

theorem reads_parameter {pair : Text × Text}
    (quotable : IsQuotableText (casing.toUppercase pair.1) ∧ IsQuotableText pair.2) :
    Reader.Reads readParameter (Utf8.encode (writtenPair casing pair))
      (Utf8.encode (casing.toUppercase pair.1), Utf8.encode pair.2) := by
  rw [writtenPair, Utf8.encode_append, Utf8.encode_cons_ascii (by decide)]
  exact (reads_string quotable.1).bind ((reads_space (reads_string quotable.2)).guarded (Reader.Reads.pure _))

theorem mapM_some {α β : Type} (items : List α) (value : α → β) :
    items.mapM (fun item => some (value item)) = some (items.map value) := by
  induction items with
  | nil => rfl
  | cons first rest ih =>
    rw [List.mapM_cons, ih]
    rfl

/-- A closing parenthesis behind a value. -/
theorem reads_close (value : α) : Reader.Reads (do
      Reader.expect (asciiOctets [')'])
      return value) [41] value :=
  (Reader.reads_expect (asciiOctets [')'])).guarded (Reader.Reads.pure value)

theorem encode_parameterList (first : Text × Text) (others : List (Text × Text)) :
    Utf8.encode (parameterList casing (first :: others)) =
      asciiOctets ['('] ++ (Utf8.encode (writtenPair casing first) ++
        (others.flatMap (fun pair => 32 :: Utf8.encode (writtenPair casing pair)) ++ [41])) := by
  have joined : [' '].intercalate ((first :: others).map (writtenPair casing)) =
      writtenPair casing first ++ others.flatMap fun pair => ' ' :: writtenPair casing pair := by
    rw [List.map_cons, intercalate_cons, List.flatMap_map]
    rfl
  have written : parameterList casing (first :: others) =
      '(' :: ([' '].intercalate ((first :: others).map (writtenPair casing)) ++ [')']) := by
    rw [parameterList, if_neg (List.cons_ne_nil _ _)]
    rfl
  have spaced : (fun pair => Utf8.encode (' ' :: writtenPair casing pair)) =
      fun pair => 32 :: Utf8.encode (writtenPair casing pair) :=
    funext fun pair => Utf8.encode_cons_ascii (by decide) _
  rw [written, joined, Utf8.encode_cons_ascii (by decide), Utf8.encode_append, Utf8.encode_append,
    encode_flatMap, spaced, List.append_assoc]
  rfl

/-- A list of parameters is read back. -/
theorem reads_parameters (quotable : QuotablePairs casing pairs) :
    Reader.Reads readParameters (Utf8.encode (parameterList casing pairs)) (parametersOf casing pairs) := by
  cases pairs with
  | nil =>
    have nothing : Reader.Reads (do
        readNil
        return []) (Utf8.encode "NIL".toList) ([] : Parameters) := reads_null.guarded (Reader.Reads.pure [])
    exact (Reader.answers_absent (fun rest _ isOpen => by cases isOpen)
      (nothing.answers Reader.Anything)).reads
  | cons first others =>
    obtain ⟨quotableFirst, quotableOthers⟩ := List.forall_mem_cons.mp quotable
    let write : Text × Text → Octets := fun pair => 32 :: Utf8.encode (writtenPair casing pair)
    let answer : Text × Text → Octets × Octets := fun pair =>
      (Utf8.encode (casing.toUppercase pair.1), Utf8.encode pair.2)
    have items : Reader.Answers (Reader.items 32 (spaced readParameter)) (others.flatMap write)
        (fun rest => rest.head? ≠ some 32) (others.mapM fun pair => some (answer pair)) :=
      Reader.answers_items (fun pair mem =>
        (reads_space (reads_parameter casing (quotableOthers pair mem))).answers _) fun _ _ => rfl
    rw [mapM_some] at items
    rw [encode_parameterList]
    refine (Reader.answers_before rfl ((Reader.reads_expect _).andThen
      ((reads_parameter casing quotableFirst).andThen ?_))).reads
    refine items.bind (fun later => some
      ((Utf8.encode (casing.toUppercase first.1), Utf8.encode first.2) :: later)) ?_ ?_
    · rintro rest - isSpace
      cases isSpace
    · intro later _
      exact (reads_close _).answers _

/-- The fields of a part. -/
def fieldsText (pairs : List (Text × Text)) (encoding : Text) (size : Nat) : Text :=
  parameterList casing pairs ++ " NIL NIL ".toList ++ Mail.quoted encoding ++ ' ' :: decimal size

theorem answers_fields {encoding : Text}
    (quotablePairs : QuotablePairs casing pairs) (quotable : IsQuotableText encoding) (size : Nat) :
    Reader.Answers readBodyFields (Utf8.encode (fieldsText casing pairs encoding size)) NoDigit
      (some ⟨parametersOf casing pairs, none, none, Utf8.encode encoding, size⟩) := by
  have null : Reader.Reads (spaced readNString) (32 :: Utf8.encode "NIL".toList) none :=
    reads_space reads_nil
  have digits : Utf8.encode (decimal size) = asciiOctets (decimal size) :=
    encode_octets fun char mem => (digit_octet (isDigit_of_mem_decimal mem)).1
  have written : Utf8.encode (fieldsText casing pairs encoding size) =
      Utf8.encode (parameterList casing pairs) ++ ((32 :: Utf8.encode "NIL".toList) ++
        ((32 :: Utf8.encode "NIL".toList) ++ ((32 :: Utf8.encode (Mail.quoted encoding)) ++
          (32 :: asciiOctets (decimal size))))) := by
    have nils : Utf8.encode " NIL NIL ".toList =
        32 :: Utf8.encode "NIL".toList ++ (32 :: Utf8.encode "NIL".toList) ++ [32] := rfl
    rw [fieldsText, Utf8.encode_append, Utf8.encode_append, Utf8.encode_append, nils,
      Utf8.encode_cons_ascii (by decide), digits]
    simp
  rw [written]
  refine (reads_parameters casing quotablePairs).andThen (null.andThen (null.andThen
    ((reads_space (reads_string quotable)).andThen ?_)))
  let fields : Nat → BodyFields := fun size =>
    ⟨parametersOf casing pairs, none, none, Utf8.encode encoding, size⟩
  exact (answers_space (answers_number size)).guarded (fun size => some (fields size))
    fun value _ => Reader.Answers.pure (fields value)

/-- What stands behind the size of a part without lines. -/
def extensionText (disposition : Option (Text × List (Text × Text))) : Text :=
  match disposition with
  | some (kind, pairs) =>
    " NIL (".toList ++ Mail.quoted kind ++ ' ' :: parameterList casing pairs ++ [')']
  | none => []

/-- The closing parenthesis of a part. -/
def Closes (rest : Octets) : Prop := rest.head? = some 41

/-- What is answered before a closing parenthesis. -/
theorem answers_closed {reader : Reader UInt8 α} {written : Octets} {answer : Option α}
    (answers : Reader.Answers reader written Closes answer) :
    Reader.Answers (do
      let value ← reader
      Reader.expect (asciiOctets [')'])
      return value) (written ++ [41]) Reader.Anything answer := by
  have closes : ∀ rest, Reader.Anything rest → Closes ([41] ++ rest) := fun _ _ => rfl
  have closed := answers.bind some closes fun value _ => (reads_close value).answers Reader.Anything
  rwa [Option.bind_fun_some] at closed

theorem encode_extensionText (kind : Text) (pairs : List (Text × Text)) :
    Utf8.encode (extensionText casing (some (kind, pairs))) =
      (32 :: Utf8.encode "NIL".toList) ++ (32 :: (asciiOctets ['('] ++
        (Utf8.encode (Mail.quoted kind) ++ ((32 :: Utf8.encode (parameterList casing pairs)) ++ [41])))) := by
  have nil : Utf8.encode " NIL (".toList = 32 :: Utf8.encode "NIL".toList ++ (32 :: asciiOctets ['(']) := rfl
  have close : Utf8.encode [')'] = [41] := rfl
  unfold extensionText
  rw [Utf8.encode_append, Utf8.encode_append, Utf8.encode_append, nil, close,
    Utf8.encode_cons_ascii (by decide)]
  simp only [List.append_assoc, List.cons_append]
  rfl

theorem reads_disposition {kind : Text} (quotable : IsQuotableText kind)
    (quotablePairs : QuotablePairs casing pairs) :
    Reader.Reads readDisposition (asciiOctets ['('] ++ (Utf8.encode (Mail.quoted kind) ++
      ((32 :: Utf8.encode (parameterList casing pairs)) ++ [41])))
      (some (Utf8.encode kind, parametersOf casing pairs)) := by
  refine (Reader.answers_before rfl (Reader.Reads.answers ?_ _)).reads
  refine (Reader.reads_expect _).bind ((reads_string quotable).bind ?_)
  exact (reads_space (reads_parameters casing quotablePairs)).bind (reads_close _)

theorem answers_extension {disposition : Option (Text × List (Text × Text))}
    (quotable : ∀ read ∈ disposition, IsQuotableText read.1 ∧ QuotablePairs casing read.2) :
    Reader.Answers readExtension (Utf8.encode (extensionText casing disposition)) Closes
      (some ⟨none, disposition.map fun read => (Utf8.encode read.1, parametersOf casing read.2)⟩) := by
  cases disposition with
  | none =>
    refine Reader.answers_absent (fun rest closes isSpace => ?_) (Reader.Answers.pure _)
    have isClose : some (41 : UInt8) = some 32 := closes.symm.trans isSpace
    cases isClose
  | some read =>
    obtain ⟨kind, pairs⟩ := read
    obtain ⟨quotableKind, quotablePairs⟩ := quotable (kind, pairs) rfl
    have null : Reader.Reads (spaced readNString) (32 :: Utf8.encode "NIL".toList) none :=
      reads_space reads_nil
    rw [encode_extensionText]
    refine Reader.answers_before rfl (null.andThen ?_)
    have isRead := (reads_space (reads_disposition casing quotableKind quotablePairs)).answers Closes
    have behind := @Reader.answers_before _ _ _ 32 _ (pure none) _ _ _ rfl isRead
    let extension : Option (Octets × Parameters) → BodyExtension := fun read => ⟨none, read⟩
    exact behind.guarded (fun read => some (extension read))
      fun value _ => Reader.Answers.pure (extension value)

/-- No envelope stands behind the size of a part. -/
theorem refuses_envelope (disposition : Option (Text × List (Text × Text))) :
    Reader.Answers (spaced readEnvelope) (Utf8.encode (extensionText casing disposition)) Closes none := by
  intro rest closes
  cases disposition with
  | none =>
    cases rest with
    | nil => cases closes
    | cons head later =>
      cases closes
      rfl
  | some read =>
    rw [encode_extensionText]
    rfl

/-- What stands behind the size of a text. -/
def linesText (lines : Option Nat) : Text :=
  match lines with
  | some lines => ' ' :: decimal lines
  | none => []

/-- A part as it is written, with its type and its encoding in capital letters. -/
def singleText (type subtype : Text) (pairs : List (Text × Text)) (encoding : Text) (size : Nat)
    (lines : Option Nat) (disposition : Option (Text × List (Text × Text))) : Text :=
  '(' :: Mail.quoted type ++ ' ' :: Mail.quoted subtype ++ ' ' :: fieldsText casing pairs encoding size ++
    linesText lines ++ extensionText casing disposition ++ [')']

/-- The part a client is to read. -/
def singleBody (type subtype : Text) (pairs : List (Text × Text)) (encoding : Text) (size : Nat)
    (lines : Option Nat) (disposition : Option (Text × List (Text × Text))) : Body :=
  .single (Utf8.encode type) (Utf8.encode subtype)
    ⟨parametersOf casing pairs, none, none, Utf8.encode encoding, size⟩ lines
    ⟨none, disposition.map fun read => (Utf8.encode read.1, parametersOf casing read.2)⟩

section Single

variable {type subtype : Text} {pairs : List (Text × Text)} {encoding : Text} {lines : Option Nat}
  {disposition : Option (Text × List (Text × Text))}

theorem noDigit_space (rest : Octets) : NoDigit (32 :: rest) := by
  rintro octet ⟨⟩
  decide

theorem noDigit_close {rest : Octets} (closes : Closes rest) : NoDigit rest := by
  intro octet isNext
  have isClose := Option.some.inj (closes.symm.trans isNext)
  rw [← isClose]
  decide

/-- No digit follows a number of a part. -/
theorem noDigit_extension {rest : Octets} (closes : Closes rest) :
    NoDigit (Utf8.encode (extensionText casing disposition) ++ rest) := by
  cases disposition with
  | none => exact noDigit_close closes
  | some read =>
    rw [encode_extensionText]
    exact noDigit_space _

section

variable (quotableType : IsQuotableText type ∧ IsQuotableText subtype)
    (quotableFields : QuotablePairs casing pairs ∧ IsQuotableText encoding)
    (quotable : ∀ read ∈ disposition, IsQuotableText read.1 ∧ QuotablePairs casing read.2)
    (isText : lines.isSome = isWord "text" (Utf8.encode type))

include quotableType quotableFields quotable isText

/-- A part is read as it was written, unless it should have had an envelope. -/
theorem answers_content (size : Nat) (inner : Reader UInt8 Body) : Reader.Answers (readSingle inner)
      (Utf8.encode (Mail.quoted type) ++ ((32 :: Utf8.encode (Mail.quoted subtype)) ++
        ((32 :: Utf8.encode (fieldsText casing pairs encoding size)) ++
          (Utf8.encode (linesText lines) ++ Utf8.encode (extensionText casing disposition))))) Closes
      (if lines = none ∧ isMessage (Utf8.encode type) (Utf8.encode subtype) = true then none
        else some (singleBody casing type subtype pairs encoding size lines disposition)) := by
  have extension := answers_extension casing quotable
  refine (reads_string quotableType.1).andThen ((reads_space (reads_string quotableType.2)).andThen ?_)
  refine (answers_space (answers_fields casing quotableFields.1 quotableFields.2 size)).bind
    (fun _ => if lines = none ∧ isMessage (Utf8.encode type) (Utf8.encode subtype) = true then none
        else some (singleBody casing type subtype pairs encoding size lines disposition)) ?_ ?_
  · intro rest closes
    cases lines with
    | none => exact noDigit_extension casing closes
    | some count =>
      rw [linesText, Utf8.encode_cons_ascii (by decide)]
      exact noDigit_space _
  · intro fields isFields
    rw [Option.mem_some_iff] at isFields
    subst isFields
    let body : Option Nat → BodyExtension → Body := fun lines extension =>
      .single (Utf8.encode type) (Utf8.encode subtype)
        ⟨parametersOf casing pairs, none, none, Utf8.encode encoding, size⟩ lines extension
    cases lines with
    | some count =>
      have text : isWord "text" (Utf8.encode type) = true := isText.symm
      have digits : Utf8.encode (decimal count) = asciiOctets (decimal count) :=
        encode_octets fun char mem => (digit_octet (isDigit_of_mem_decimal mem)).1
      have notNone : ¬ (some count = none ∧
          isMessage (Utf8.encode type) (Utf8.encode subtype) = true) := fun both => by cases both.1
      rw [if_pos text, if_neg notNone, linesText, Utf8.encode_cons_ascii (by decide), digits]
      refine (answers_space (answers_number count)).bind (fun lines => some
        (body (some lines) _)) (fun rest closes => noDigit_extension casing closes) fun lines _ => ?_
      exact extension.guarded (fun extension => some (body (some lines) extension))
        fun value _ => Reader.Answers.pure (body (some lines) value)
    | none =>
      have noText : isWord "text" (Utf8.encode type) ≠ true := by simp [← isText]
      have nothing : Utf8.encode (linesText none) = [] := rfl
      rw [if_neg noText, nothing, List.nil_append]
      by_cases message : isMessage (Utf8.encode type) (Utf8.encode subtype) = true
      · rw [if_pos message, if_pos ⟨rfl, message⟩]
        exact (refuses_envelope casing disposition).guarded (fun _ => none)
          fun value isValue => by cases isValue
      · rw [if_neg message, if_neg fun both => message both.2]
        exact extension.guarded (fun extension => some (body none extension))
          fun value _ => Reader.Answers.pure (body none value)

/-- A single part in its parentheses. -/
theorem answers_single (size fuel : Nat) : Reader.Answers (readStructure (fuel + 1))
      (Utf8.encode (singleText casing type subtype pairs encoding size lines disposition)) Reader.Anything
      (if lines = none ∧ isMessage (Utf8.encode type) (Utf8.encode subtype) = true then none
        else some (singleBody casing type subtype pairs encoding size lines disposition)) := by
  have written : Utf8.encode (singleText casing type subtype pairs encoding size lines disposition) =
      asciiOctets ['('] ++ ((Utf8.encode (Mail.quoted type) ++ ((32 :: Utf8.encode (Mail.quoted subtype)) ++
        ((32 :: Utf8.encode (fieldsText casing pairs encoding size)) ++
          (Utf8.encode (linesText lines) ++ Utf8.encode (extensionText casing disposition))))) ++ [41]) := by
    have close : Utf8.encode [')'] = [41] := rfl
    unfold singleText
    simp only [Utf8.encode_append, @Utf8.encode_cons_ascii '(' (by decide),
      @Utf8.encode_cons_ascii ' ' (by decide), close, List.append_assoc, List.cons_append]
    rfl
  have content := answers_content casing quotableType quotableFields quotable isText size (readStructure fuel)
  have single := @Reader.answers_absent _ _ _ 40 (readMulti (readStructure fuel)) _ _ _ _ (by
    intro rest _ isOpen
    rw [List.append_assoc, List.head?_append, head?_quoted] at isOpen
    cases isOpen) content
  rw [written]
  exact (Reader.reads_expect _).andThen (answers_closed single)

end

end Single

/-- Several parts are read one after the other. -/
theorem answers_multi {items : List α} {write : α → Octets} {answer : α → Option Body}
    {fuel : Nat} (answers : ∀ item ∈ items, Reader.Answers (readStructure fuel) (write item) Reader.Anything
      (answer item))
    (begins : ∀ item ∈ items, (write item).head? = some 40) (notEmpty : items ≠ [])
    {subtype boundary parts : Text} (quotable : IsQuotableText subtype ∧ IsQuotableText boundary)
    (isWritten : Utf8.encode parts = items.flatMap write) :
    Reader.Answers (readStructure (fuel + 1)) (Utf8.encode (wrapped parts subtype boundary)) Reader.Anything
      ((items.mapM answer).map fun bodies => .multi bodies (Utf8.encode subtype)
        (parametersOf casing [("boundary".toList, boundary)])) := by
  have name : casing.toUppercase "boundary".toList = "BOUNDARY".toList :=
    casing.toUppercase_ascii (by decide)
  have quotableBoundary : QuotablePairs casing [("boundary".toList, boundary)] := by
    refine List.forall_mem_singleton.mpr ⟨?_, quotable.2⟩
    rw [name]
    exact (by decide : ∀ char ∈ "BOUNDARY".toList,
      0 < char.toNat ∧ char.toNat < 0x80 ∧ char ≠ '\r' ∧ char ≠ '\n')
  have parameters : parameterList casing [("boundary".toList, boundary)] =
      "(\"BOUNDARY\" ".toList ++ Mail.quoted boundary ++ [')'] := by
    rw [parameterList, if_neg (List.cons_ne_nil _ _), List.map_singleton, List.intercalate_singleton, name]
    rfl
  have written : Utf8.encode (wrapped parts subtype boundary) =
      asciiOctets ['('] ++ ((items.flatMap write ++ ((32 :: Utf8.encode (Mail.quoted subtype)) ++
        (32 :: Utf8.encode (parameterList casing [("boundary".toList, boundary)])))) ++ [41]) := by
    have opening : " (\"BOUNDARY\" ".toList = ' ' :: "(\"BOUNDARY\" ".toList := by decide
    have closing : "))".toList = [')'] ++ [')'] := by decide
    have isText : wrapped parts subtype boundary = '(' :: (parts ++ (' ' :: Mail.quoted subtype ++
        (' ' :: parameterList casing [("boundary".toList, boundary)] ++ [')']))) := by
      unfold wrapped
      rw [parameters, opening, closing]
      simp only [List.append_assoc, List.cons_append]
    have close : Utf8.encode [')'] = [41] := rfl
    rw [isText]
    simp only [Utf8.encode_append, @Utf8.encode_cons_ascii '(' (by decide), isWritten,
      @Utf8.encode_cons_ascii ' ' (by decide), close, List.append_assoc, List.cons_append]
    rfl
  have first : (items.flatMap write).head? = some 40 := by
    obtain ⟨item, others, rfl⟩ := List.exists_cons_of_ne_nil notEmpty
    rw [List.flatMap_cons, List.head?_append, begins item List.mem_cons_self, Option.some_or]
  let body : List Body → Body := fun bodies => .multi bodies (Utf8.encode subtype)
    (parametersOf casing [("boundary".toList, boundary)])
  have behind : ∀ bodies, Reader.Answers (do
      let subtype ← spaced readString
      let parameters ← Reader.before 32 (spaced readParameters) (return [])
      return Body.multi bodies subtype parameters) ((32 :: Utf8.encode (Mail.quoted subtype)) ++
        (32 :: Utf8.encode (parameterList casing [("boundary".toList, boundary)]))) Closes
        (some (body bodies)) := by
    intro bodies
    refine (reads_space (reads_string quotable.1)).andThen ?_
    have isRead := (reads_space (reads_parameters casing quotableBoundary)).answers Closes
    have read := @Reader.answers_before _ _ _ 32 _ (pure []) _ _ _ rfl isRead
    exact read.guarded (fun parameters =>
      some (Body.multi bodies (Utf8.encode subtype) parameters)) fun value _ => Reader.Answers.pure _
  have content : Reader.Answers (readMulti (readStructure fuel)) (items.flatMap write ++
      ((32 :: Utf8.encode (Mail.quoted subtype)) ++
        (32 :: Utf8.encode (parameterList casing [("boundary".toList, boundary)])))) Closes
      ((items.mapM answer).bind fun bodies => some (body bodies)) := by
    refine (Reader.answers_items answers begins).bind _ (fun rest _ isOpen => ?_)
      fun bodies _ => behind bodies
    cases isOpen
  have multi := @Reader.answers_before _ _ _ _ _ (readSingle (readStructure fuel)) _ _ _
    (by rw [List.head?_append, first, Option.some_or]) content
  rw [written, Option.map_eq_bind]
  exact (Reader.reads_expect _).andThen (answers_closed multi)

end Written

end TutaBridge.Imap
