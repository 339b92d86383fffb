import TutaBridge.Imap.Bodystructure
import TutaBridge.Imap.HeaderFields
import TutaBridge.Imap.Session
import TutaBridge.Mail.Dates
import TutaBridge.Mail.SlicedStructure
import TutaBridge.Std.Nested

/-!
# The response to a fetch

`build_fetch_response` looks for the names of data items anywhere in the text that the client sent,
and writes the item of each name it finds: numbers, flags, the envelope and the body structure in
parentheses, and what is cut from the message as literals. A client reads the items back, and
knows nothing of what it asked for.
-/

namespace TutaBridge.Imap

open TutaBridge.Std TutaBridge.Std.Text Tuta TutaBridge.Mail Store

variable {structures : List Text} {headers : List (Text × Text)} {item : FetchItem} {text : Text}
    {fields : List Text} {char : Char}

/-! ## What is written -/

/-- `items.to_ascii_uppercase().contains`. -/
def asksFor (items : Text) (name : String) : Bool := contains (items.map Char.toUpper) name.toList

/-- `fetch_items_use_content`. -/
def fetchItemsUseContent (items : Text) : Bool :=
  asksFor items "BODY" || asksFor items "RFC822" || asksFor items "ENVELOPE"

/-- `extract_headers`: what stands up to the first empty line, and that line. -/
def extractHeaders (rfc : Text) :
    Text := ((before? (Text.crlf ++ Text.crlf) rfc).map (· ++ Text.crlf ++ Text.crlf)).getD rfc

/-- A name and a literal, as items of text are written. -/
def literalPart (name text : Text) : Text :=
  name ++ " \x7b".toList ++ decimal (Utf8.encode text).length ++ "\x7d\r\n".toList ++ text

def isParenthesis (char : Char) : Bool := char = '(' || char = ')'

/-- `has_rfc822_full`. -/
def asksForWhole (items : Text) : Bool :=
  (words (items.map Char.toUpper)).any fun word =>
    (word.dropWhile isParenthesis).rdropWhile isParenthesis = "RFC822".toList

def flagTexts (cached : CachedMail) : List Text :=
  (if cached.mail.unread then [] else ["\\Seen".toList]) ++ if cached.deleted then ["\\Deleted".toList] else []

section Build

variable (casing : Casing) (cached : CachedMail) (items : Text) (uidMode : Bool) (body : Option BodyEntry)

/-- `rfc`: the message as it is cached, or else with no more than is known of it, where an item is
answered from a message at all. -/
def rendering : Option Text :=
  match body with
  | some body => some body.rfc2822.toList
  | none => if fetchItemsUseContent items then some (mailToRfc2822 cached.mail none []) else none

/-- The item cut from the message: all of it, the fields named, or the header. -/
def contentParts (rfc : Text) : List Text :=
  if asksFor items "BODY[]" || asksFor items "BODY.PEEK[]" then [literalPart "BODY[]".toList rfc]
  else
    match parseHeaderFieldsSection items with
    | some (section', fields, negate) =>
      [literalPart ("BODY[".toList ++ section' ++ [']']) (filterHeaderFields casing fields negate rfc)]
    | none =>
      if asksFor items "HEADER" then
        [literalPart (if asksFor items "RFC822.HEADER" then "RFC822.HEADER".toList else "BODY[HEADER]".toList)
          (extractHeaders rfc)]
      else []

/-- The body structure, where it is asked for and written without a panic. -/
def structures? : Option (List Text) :=
  if asksFor items "BODYSTRUCTURE" then
    (match rendering cached items body with
      | some rfc => computeBodystructure? casing rfc
      | none => some "(\"TEXT\" \"HTML\" (\"CHARSET\" \"UTF-8\") NIL NIL \"BASE64\" 0 0)".toList).map ([·])
  else some []

/-- `parts`, with the body structure. -/
def fetchParts (structures : List Text) : List Text :=
  (if uidMode || asksFor items "UID" then ["UID ".toList ++ decimal cached.uid] else []) ++
    (if asksFor items "FLAGS" then ["FLAGS (".toList ++ [' '].intercalate (flagTexts cached) ++ [')']] else []) ++
    (if asksFor items "INTERNALDATE" then
      ["INTERNALDATE \"".toList ++ formatInternalDate cached.mail.receivedDate ++ ['"']] else []) ++
    (if asksFor items "RFC822.SIZE" then
      ["RFC822.SIZE ".toList ++
        decimal (((rendering cached items body).map fun rfc => (Utf8.encode rfc).length).getD 0)] else []) ++
    (if asksFor items "ENVELOPE" then
      ["ENVELOPE ".toList ++ buildEnvelope cached.mail (addressHeaders casing cached.mail body)] else []) ++
    structures.map ("BODYSTRUCTURE ".toList ++ ·) ++
    (rendering cached items body).toList.flatMap (contentParts casing items) ++
    (if asksForWhole items then
      (rendering cached items body).toList.map (literalPart "RFC822".toList) else [])

/-- `build_fetch_response`. -/
def buildFetchResponse? (seq : Nat) : Option Text :=
  (structures? casing cached items body).map fun structures =>
    "* ".toList ++ decimal seq ++ " FETCH (".toList ++
      [' '].intercalate (fetchParts casing cached items uidMode body structures) ++ ")\r\n".toList

end Build

/-! ## What a client reads -/

/-- A data item of a response. A body structure is left as it stands. -/
inductive FetchItem where
  | uid (uid : Nat)
  | flags (flags : List Octets)
  | internalDate (date : Octets)
  | size (octets : Nat)
  | envelope (envelope : Envelope)
  | bodyStructure (written : Octets)
  | body (section' content : Octets)
  | header (content : Octets)
  | whole (content : Octets)
deriving DecidableEq, Repr

def parentheses : Std.Marks UInt8 where
  opened := 40
  closed := 41
  quote := 34
  escape := 92
  distinct := by decide

/-- `flag-list`, up to its closing parenthesis. -/
def readFlags : Reader UInt8 (List Octets) := do
  Reader.expect (asciiOctets ['('])
  let flags ← Reader.takeWhile (· ≠ 41)
  Reader.expect (asciiOctets [')'])
  return if flags = [] then [] else flags.splitOn 32

/-- `section`, up to its closing bracket, and the text of it. -/
def readSection : Reader UInt8 FetchItem := do
  Reader.expect (asciiOctets ['['])
  let section' ← Reader.takeWhile (· ≠ 93)
  Reader.expect (asciiOctets [']'])
  let content ← spaced readString
  return .body section' content

/-- What stands behind the name of an item. -/
def itemNamed (name : Octets) : Reader UInt8 FetchItem :=
  if name = asciiOctets "UID".toList then FetchItem.uid <$> spaced readNumber
  else if name = asciiOctets "FLAGS".toList then FetchItem.flags <$> spaced readFlags
  else if name = asciiOctets "INTERNALDATE".toList then FetchItem.internalDate <$> spaced readString
  else if name = asciiOctets "RFC822.SIZE".toList then FetchItem.size <$> spaced readNumber
  else if name = asciiOctets "ENVELOPE".toList then FetchItem.envelope <$> spaced readEnvelope
  else if name = asciiOctets "BODYSTRUCTURE".toList then
    FetchItem.bodyStructure <$> spaced parentheses.readGroup
  else if name = asciiOctets "BODY".toList then readSection
  else if name = asciiOctets "RFC822.HEADER".toList then FetchItem.header <$> spaced readString
  else if name = asciiOctets "RFC822".toList then FetchItem.whole <$> spaced readString
  else failure

/-- `msg-att-static` and `msg-att-dynamic`. -/
def readFetchItem : Reader UInt8 FetchItem := do
  let name ← Reader.takeWhile fun octet => octet ≠ 32 && octet ≠ 91
  itemNamed name

/-- A response with the data items of a message, one at least. -/
def readFetchResponse : Reader UInt8 (Nat × List FetchItem) := do
  Reader.expect (asciiOctets "* ".toList)
  let seq ← readNumber
  Reader.expect (asciiOctets " FETCH (".toList)
  let items ← fun input => Reader.list readFetchItem 32 41 input.length input
  Reader.expect (asciiOctets "\r\n".toList)
  return (seq, items)

/-! ## What is meant -/

section Meaning

variable (casing : Casing) (cached : CachedMail) (items : Text) (uidMode : Bool) (body : Option BodyEntry)

/-- What is served of a message to the client that asks for these items. -/
def contentItems (rfc : Text) : List FetchItem :=
  if asksFor items "BODY[]" || asksFor items "BODY.PEEK[]" then [.body [] (Utf8.encode rfc)]
  else
    match parseHeaderFieldsSection items with
    | some (section', fields, negate) =>
      [.body (Utf8.encode section') (Utf8.encode (filterHeaderFields casing fields negate rfc))]
    | none =>
      if asksFor items "HEADER" then
        [if asksFor items "RFC822.HEADER" then .header (Utf8.encode (extractHeaders rfc))
          else .body (asciiOctets "HEADER".toList) (Utf8.encode (extractHeaders rfc))]
      else []

/-- What is served to the client that asks for these items. -/
def fetchItems (structures : List Text) : List FetchItem :=
  (if uidMode || asksFor items "UID" then [.uid cached.uid] else []) ++
    (if asksFor items "FLAGS" then [.flags ((flagTexts cached).map Utf8.encode)] else []) ++
    (if asksFor items "INTERNALDATE" then
      [.internalDate (Utf8.encode (formatInternalDate cached.mail.receivedDate))] else []) ++
    (if asksFor items "RFC822.SIZE" then
      [.size (((rendering cached items body).map fun rfc => (Utf8.encode rfc).length).getD 0)] else []) ++
    (if asksFor items "ENVELOPE" then
      [.envelope (envelopeOf cached.mail (addressHeaders casing cached.mail body))] else []) ++
    structures.map (fun written => .bodyStructure (Utf8.encode written)) ++
    (rendering cached items body).toList.flatMap (contentItems casing items) ++
    (if asksForWhole items then
      (rendering cached items body).toList.map fun rfc => .whole (Utf8.encode rfc) else [])

end Meaning

/-! ## A body structure is balanced -/

section Balanced

variable (casing : Casing)

/-- A text that opens no parenthesis but it closes it. -/
def Balanced (text : Text) : Prop := parentheses.Level (Utf8.encode text)

theorem Balanced.append {first second : Text} (one : Balanced first) (two : Balanced second) :
    Balanced (first ++ second) := by
  rw [Balanced, Utf8.encode_append]
  exact Std.Marks.Level.append one two

theorem Balanced.flatMap {α : Type} {items : List α} {write : α → Text}
    (each : ∀ item ∈ items, Balanced (write item)) : Balanced (items.flatMap write) := by
  rw [Balanced, encode_flatMap]
  exact Std.Marks.Level.flatMap each

/-- No octet of another character is the octet of an ASCII one. -/
theorem octet_ne {mark : Char} (ascii : mark.toNat < 0x80) (absent : mark ∉ text) :
    ∀ octet ∈ Utf8.encode text, octet ≠ UInt8.ofNat mark.toNat := by
  rintro octet mem rfl
  exact absent (Utf8.mem_of_mem_encode ascii mem)

theorem Balanced.plain (absent : ')' ∉ text ∧ '(' ∉ text ∧ '"' ∉ text) : Balanced text :=
  Std.Marks.Level.plain fun octet mem =>
    ⟨@octet_ne text ')' (by decide) absent.1 octet mem, @octet_ne text '(' (by decide) absent.2.1 octet mem,
      @octet_ne text '"' (by decide) absent.2.2 octet mem⟩

theorem Balanced.group (balanced : Balanced text) : Balanced ('(' :: (text ++ [')'])) := by
  rw [Balanced, Utf8.encode_cons_ascii (by decide), Utf8.encode_append]
  exact Std.Marks.Level.group balanced

/-- In quotes a quote and a backslash are escaped, and nothing else opens or closes. -/
theorem balanced_quoted (text : Text) : Balanced (Mail.quoted text) := by
  rw [Balanced, Mail.quoted, Utf8.encode_cons_ascii (by decide), Utf8.encode_append, encode_flatMap]
  refine Std.Marks.Level.quoted (Std.Marks.Inside.flatMap fun char _ => ?_)
  split
  next isMark =>
    obtain rfl | rfl := isMark
    · exact Std.Marks.Inside.escape 92
    · exact Std.Marks.Inside.escape 34
  next noMark =>
    obtain ⟨noEscape, noQuote⟩ := not_or.mp noMark
    refine Std.Marks.Inside.plain fun octet mem => ⟨?_, ?_⟩
    · exact @octet_ne [char] '\\' (by decide) (fun isChar => noEscape (List.mem_singleton.mp isChar).symm) octet mem
    · exact @octet_ne [char] '"' (by decide) (fun isChar => noQuote (List.mem_singleton.mp isChar).symm) octet mem

theorem balanced_decimal (value : Nat) : Balanced (decimal value) :=
  Balanced.plain ⟨not_mem_decimal rfl, not_mem_decimal rfl, not_mem_decimal rfl⟩

theorem balanced_space : Balanced [' '] := Balanced.plain (by decide)

theorem Balanced.intercalate {parts : List Text} (each : ∀ part ∈ parts, Balanced part) :
    Balanced ([' '].intercalate parts) := by
  induction parts with
  | nil => exact Std.Marks.Level.nil
  | cons first others ih =>
    obtain ⟨one, later⟩ := List.forall_mem_cons.mp each
    rw [intercalate_cons]
    exact one.append (Balanced.flatMap fun part mem => balanced_space.append (later part mem))

theorem balanced_parameterList (pairs : List (Text × Text)) : Balanced (parameterList casing pairs) := by
  rw [parameterList]
  split
  · exact Balanced.plain (by decide)
  · refine Balanced.group (Balanced.intercalate fun part mem => ?_)
    obtain ⟨pair, -, rfl⟩ := List.mem_map.mp mem
    exact (balanced_quoted _).append (balanced_space.append (balanced_quoted _))
/-- A value in parentheses. -/
def Grouped (text : Text) : Prop := ∃ inner, Balanced inner ∧ text = '(' :: (inner ++ [')'])

theorem Grouped.balanced (grouped : Grouped text) : Balanced text := by
  obtain ⟨inner, balanced, rfl⟩ := grouped
  exact balanced.group

theorem balanced_nils : Balanced " NIL NIL ".toList := Balanced.plain (by decide)

theorem balanced_disposition {disposition : Text}
    (built : buildDisposition casing headers = some disposition) : Balanced disposition := by
  obtain ⟨value, -, written⟩ := Option.bind_eq_some_iff.mp built
  simp only [Option.ite_none_left_eq_some, Option.some.injEq] at written
  rw [← written.2, List.cons_append, List.cons_append, List.append_assoc]
  have inner := (balanced_quoted (casing.toUppercase (valueHead value))).append
    (balanced_space.append (balanced_parameterList casing (parameterPairs value)))
  simpa using inner.group

theorem grouped_singlePartStructure (contentType encoding body : Text) (headers : List (Text × Text)) :
    Grouped (singlePartStructure casing contentType encoding body headers) := by
  have lines : Balanced (if eqIgnoreAsciiCase (parseTypeSubtype contentType).1 "text".toList then
      ' ' :: decimal (countLines body) else []) := by
    split
    · exact balanced_space.append (balanced_decimal _)
    · exact Std.Marks.Level.nil
  have inside := fun extension (closed : Balanced extension) =>
    (balanced_quoted (casing.toUppercase (parseTypeSubtype contentType).1)).append
    (balanced_space.append ((balanced_quoted (casing.toUppercase (parseTypeSubtype contentType).2)).append
      (balanced_space.append ((balanced_parameterList casing (parameterPairs contentType)).append
        (balanced_nils.append ((balanced_quoted (casing.toUppercase encoding)).append
          (balanced_space.append ((balanced_decimal (Utf8.encode body).length).append
            (lines.append closed)))))))))
  cases isDisposition : buildDisposition casing headers with
  | none =>
    refine ⟨_, inside [] Std.Marks.Level.nil, ?_⟩
    simp only [singlePartStructure, buildParams, isDisposition, List.append_assoc, List.cons_append,
      List.nil_append]
  | some disposition =>
    have closed := balanced_disposition casing isDisposition
    refine ⟨_, inside (" NIL ".toList ++ disposition) ((Balanced.plain (by decide)).append closed), ?_⟩
    simp only [singlePartStructure, buildParams, isDisposition, List.append_assoc, List.cons_append,
      List.nil_append]

theorem grouped_singlePartStructure? {contentType encoding body written : Text}
    (isWritten : singlePartStructure? casing contentType encoding body headers = some written) : Grouped written := by
  rw [singlePartStructure?_eq, Option.some.injEq] at isWritten
  subst isWritten
  exact grouped_singlePartStructure casing _ _ _ _

theorem grouped_of_mapM {part : Text → Option Text}
    (grouped : ∀ text written, part text = some written → Grouped written)
    {texts parts : List Text} (written : texts.mapM part = some parts) : ∀ part ∈ parts, Grouped part := by
  induction texts generalizing parts with
  | nil =>
    cases written
    exact List.forall_mem_nil _
  | cons text texts ih =>
    rw [List.mapM_cons] at written
    obtain ⟨first, isFirst, written⟩ := Option.bind_eq_some_iff.mp written
    obtain ⟨others, areOthers, same⟩ := Option.bind_eq_some_iff.mp written
    cases same
    exact List.forall_mem_cons.mpr ⟨grouped text first isFirst, ih areOthers⟩

theorem grouped_multipartStructure? {part : Text → Option Text}
    (grouped : ∀ text written, part text = some written → Grouped written) {contentType body written : Text}
    (isWritten : multipartStructure? casing part contentType body = some written) : Grouped written := by
  obtain ⟨boundary, -, isWritten⟩ := Option.bind_eq_some_iff.mp isWritten
  dsimp only at isWritten
  split at isWritten
  · cases isWritten
    have charset : Balanced "(\"CHARSET\" \"UTF-8\")".toList :=
      ((balanced_quoted "CHARSET".toList).append
        (balanced_space.append (balanced_quoted "UTF-8".toList))).group
    have zero : Balanced " 0".toList := Balanced.plain (by decide)
    have inside := (balanced_quoted "TEXT".toList).append (balanced_space.append
      ((balanced_quoted "HTML".toList).append (balanced_space.append (charset.append (balanced_nils.append
        ((balanced_quoted "7BIT".toList).append (balanced_space.append
          ((balanced_decimal (Utf8.encode body).length).append zero))))))))
    refine ⟨_, inside, ?_⟩
    simp [Mail.quoted]
  · obtain ⟨parts, areParts, isWritten⟩ := Option.bind_eq_some_iff.mp isWritten
    cases isWritten
    have each := grouped_of_mapM grouped areParts
    have flat : Balanced parts.flatten := by
      have together := @Balanced.flatMap _ parts id fun part mem => (each part mem).balanced
      rwa [List.flatMap_id] at together
    have parameters := ((balanced_quoted "BOUNDARY".toList).append (balanced_space.append
      (balanced_quoted (boundary.getD [])))).group
    have inside := flat.append (balanced_space.append ((balanced_quoted (casing.toUppercase ((subtypeOf
      contentType).getD "mixed".toList))).append (balanced_space.append parameters)))
    refine ⟨_, inside, ?_⟩
    simp [Mail.quoted]

theorem grouped_bodystructureFor? {fuel : Nat} {contentType encoding body written : Text}
    (isWritten : bodystructureFor? casing fuel contentType encoding body headers = some written) :
    Grouped written := by
  induction fuel generalizing contentType encoding body written headers with
  | zero => exact grouped_singlePartStructure? casing isWritten
  | succ fuel ih =>
    rw [bodystructureFor?] at isWritten
    split at isWritten
    · refine grouped_multipartStructure? casing (fun text part isPart => ?_) isWritten
      obtain ⟨parts, -, isPart⟩ := Option.bind_eq_some_iff.mp isPart
      exact ih isPart
    · exact grouped_singlePartStructure? casing isWritten

/-- A body structure is a value in parentheses, whatever the message is. -/
theorem grouped_computeBodystructure? {rfc written : Text}
    (isWritten : computeBodystructure? casing rfc = some written) : Grouped written := by
  obtain ⟨parts, -, isWritten⟩ := Option.bind_eq_some_iff.mp isWritten
  exact grouped_bodystructureFor? casing isWritten

theorem Grouped.reads {written : Text} (grouped : Grouped written) :
    Reader.Reads parentheses.readGroup (Utf8.encode written) (Utf8.encode written) := by
  obtain ⟨inner, balanced, rfl⟩ := grouped
  rw [Utf8.encode_cons_ascii (by decide), Utf8.encode_append]
  exact Std.Marks.reads_group balanced

end Balanced

/-! ## What is cut from a message -/

theorem flatten_splitInclusiveFrom (pattern current text : Text) :
    (splitInclusiveFrom pattern current text).flatten = current ++ text := by
  induction text generalizing current with
  | nil =>
    rw [splitInclusiveFrom]
    split
    next isEmpty => rw [isEmpty, List.flatten_nil, List.append_nil]
    next => simp
  | cons char rest ih =>
    rw [splitInclusiveFrom]
    split
    · rw [List.flatten_cons, ih, List.nil_append, List.append_assoc, List.singleton_append]
    · rw [ih, List.append_assoc, List.singleton_append]

theorem mem_keepLines {casing : Casing} {negate keep : Bool} {lines : List Text}
    (mem : char ∈ keepLines casing fields negate keep lines) : char ∈ lines.flatten := by
  induction lines generalizing keep with
  | nil => exact mem
  | cons line rest ih =>
    have kept : ∀ keep : Bool, char ∈ (if keep then line else []) → char ∈ line := by
      intro keep inLine
      cases keep with
      | true => exact inLine
      | false => exact absurd inLine List.not_mem_nil
    rw [List.flatten_cons]
    rcases List.mem_append.mp mem with inLine | later
    · exact List.mem_append_left _ (kept _ inLine)
    · exact List.mem_append_right _ (ih later)

/-- The header holds no character but the message's. -/
theorem mem_header {rfc : Text}
    (mem : char ∈ ((before? (Text.crlf ++ Text.crlf) rfc).map (· ++ Text.crlf)).getD rfc) : char ∈ rfc := by
  cases isFound : before? (Text.crlf ++ Text.crlf) rfc with
  | none => rwa [isFound] at mem
  | some front =>
    obtain ⟨back, split⟩ := prefix_of_before? isFound
    rw [isFound, Option.map_some, Option.getD_some] at mem
    rw [← split, ← List.append_assoc front, List.append_assoc (front ++ Text.crlf)]
    exact List.mem_append_left _ mem

theorem mem_filterHeaderFields {casing : Casing} {negate : Bool} {rfc : Text}
    (mem : char ∈ filterHeaderFields casing fields negate rfc) : char ∈ rfc ∨ char ∈ Text.crlf := by
  rcases List.mem_append.mp mem with kept | last
  · have inLines := mem_keepLines kept
    rw [splitInclusive, flatten_splitInclusiveFrom, List.nil_append] at inLines
    exact .inl (mem_header inLines)
  · exact .inr last

theorem mem_extractHeaders {rfc : Text} (mem : char ∈ extractHeaders rfc) : char ∈ rfc := by
  cases isFound : before? (Text.crlf ++ Text.crlf) rfc with
  | none => rwa [extractHeaders, isFound] at mem
  | some front =>
    obtain ⟨back, split⟩ := prefix_of_before? isFound
    rw [extractHeaders, isFound, Option.map_some, Option.getD_some, List.append_assoc] at mem
    rw [← split]
    exact List.mem_append_left _ mem

/-! ## An item is read -/

/-- What stands behind an item: the next one, or the end of the list. -/
abbrev BehindItem : Octets → Prop := Reader.Separated 32 41

/-- The item is read from what is written for it. -/
def Conveys (part : Text) (item : FetchItem) : Prop :=
  Reader.Answers readFetchItem (Utf8.encode part) BehindItem (some item)

theorem noDigit_behind {rest : Octets} (behind : BehindItem rest) : NoDigit rest := by
  intro octet mem
  rcases behind with blank | closed
  · rw [blank] at mem
    cases mem
    decide
  · rw [closed] at mem
    cases mem
    decide

/-- An item is read by its name, which ends before a blank or a bracket. -/
theorem conveys_named {name rest : Text} {mark : Char} (ascii : ∀ char ∈ name, char.toNat < 0x80)
    (isName : ∀ octet ∈ asciiOctets name, (octet ≠ 32 && octet ≠ 91) = true) (isMark : mark = ' ' ∨ mark = '[')
    (answers : Reader.Answers (itemNamed (asciiOctets name)) (Utf8.encode (mark :: rest)) BehindItem (some item)) :
    Conveys (name ++ mark :: rest) item := by
  rw [Conveys, Utf8.encode_append, encode_octets ascii]
  refine (Reader.answers_takeWhile isName).bind (fun _ => some item) ?_ fun read isRead =>
    Option.mem_some_iff.mp isRead ▸ answers
  rintro behind - octet mem
  rcases isMark with rfl | rfl
  · rw [Utf8.encode_cons_ascii (by decide)] at mem
    cases mem
    decide
  · rw [Utf8.encode_cons_ascii (by decide)] at mem
    cases mem
    decide

/-- An item that a value follows behind a blank. -/
theorem conveys_value (name : Text) {rest : Text} {α : Type} {value : Reader UInt8 α} {meant : α}
    {make : α → FetchItem}
    (isItem : itemNamed (asciiOctets name) = make <$> spaced value) (ascii : ∀ char ∈ name, char.toNat < 0x80)
    (isName : ∀ octet ∈ asciiOctets name, (octet ≠ 32 && octet ≠ 91) = true)
    (answers : Reader.Answers value (Utf8.encode rest) BehindItem (some meant)) :
    Conveys (name ++ ' ' :: rest) (make meant) := by
  refine conveys_named ascii isName (.inl rfl) ?_
  rw [isItem, Utf8.encode_cons_ascii (by decide)]
  exact (answers_space answers).map make

theorem reads_text (noNul : '\x00' ∉ text) : Reader.Reads readString
      (Utf8.encode ('{' :: decimal (Utf8.encode text).length ++ "\x7d\r\n".toList ++ text)) (Utf8.encode text) := by
  have ascii : ∀ char ∈ '{' :: decimal (Utf8.encode text).length ++ "\x7d\r\n".toList, char.toNat < 0x80 := by
    refine List.forall_mem_append.mpr ⟨List.forall_mem_cons.mpr ⟨by decide, ?_⟩, by decide⟩
    exact fun char mem => (digit_octet (isDigit_of_mem_decimal mem)).1
  have noNulOctet : 0 ∉ Utf8.encode text := fun mem =>
    noNul (@Utf8.mem_of_mem_encode text '\x00' (by decide) mem)
  rw [Utf8.encode_append, encode_octets ascii]
  exact (reads_literal noNulOctet).guarded (Reader.Reads.pure _)

theorem literalPart_eq (name text : Text) : literalPart name text =
    name ++ ' ' :: ('{' :: decimal (Utf8.encode text).length ++ "\x7d\r\n".toList ++ text) := by
  have space : " \x7b".toList = [' ', '{'] := rfl
  simp only [literalPart, space, List.append_assoc, List.cons_append, List.nil_append]

/-- A section is read with its text, where no bracket stands in its name. -/
theorem conveys_section {section' text : Text} (noBracket : ']' ∉ section') (noNul : '\x00' ∉ text) :
    Conveys (literalPart ("BODY[".toList ++ section' ++ [']']) text)
      (.body (Utf8.encode section') (Utf8.encode text)) := by
  have split : literalPart ("BODY[".toList ++ section' ++ [']']) text =
      "BODY".toList ++ '[' :: (section' ++ ']' :: (' ' ::
        ('{' :: decimal (Utf8.encode text).length ++ "\x7d\r\n".toList ++ text))) := by
    have name : "BODY[".toList = "BODY".toList ++ ['['] := rfl
    rw [literalPart_eq, name]
    simp only [List.append_assoc, List.cons_append, List.nil_append]
  have kind : ∀ octet ∈ Utf8.encode section', decide (octet ≠ 93) = true := fun octet mem =>
    decide_eq_true (@octet_ne section' ']' (by decide) noBracket octet mem)
  have stops : ∀ rest : Octets, ∀ symbol ∈ ((93 : UInt8) :: rest).head?, decide (symbol ≠ 93) = false := by
    rintro rest symbol ⟨⟩
    decide
  rw [split]
  refine conveys_named (by decide) (by decide) (.inr rfl) (Reader.Reads.answers ?_ _)
  rw [Utf8.encode_cons_ascii (by decide), Utf8.encode_append, Utf8.encode_cons_ascii (by decide),
    Utf8.encode_cons_ascii (by decide)]
  have content : Reader.Reads (do
      Reader.expect (asciiOctets [']'])
      let content ← spaced readString
      return FetchItem.body (Utf8.encode section') content) _ _ :=
    (Reader.reads_expect (asciiOctets [']'])).bind
      ((reads_space (reads_text noNul)).guarded (Reader.Reads.pure (FetchItem.body (Utf8.encode section') (Utf8.encode text))))
  refine (Reader.reads_expect (asciiOctets ['['])).bind ?_
  exact ((Reader.answers_takeWhile kind).bind (fun _ => some _) (fun rest _ => stops _) fun read isRead =>
    Option.mem_some_iff.mp isRead ▸ content.answers Reader.Anything).reads

/-- The characters of a date, which need no escapes. -/
def isInternalDateChar (char : Char) : Bool := char.isAlphanum || char ∈ " -:+".toList

theorem isInternalDateChar_of_mem (millis : Nat) :
    ∀ char ∈ formatInternalDate millis, isInternalDateChar char = true := by
  have month := @forall_mem_getD months (fun char => isInternalDateChar char = true) (by decide)
  have number : ∀ width value, ∀ char ∈ padded width value, isInternalDateChar char = true := by
    intro width value char mem
    simp [isInternalDateChar, Char.isAlphanum, mem_padded mem]
  simp only [formatInternalDate, List.forall_mem_append, List.forall_mem_cons]
  exact ⟨number _ _, by decide, month _, by decide, number _ _, by decide, number _ _, by decide, number _ _,
    by decide, number _ _, by decide⟩

theorem reads_internalDate {date : Text} (isDate : ∀ char ∈ date, isInternalDateChar char = true) :
    Reader.Reads readString (Utf8.encode ('"' :: (date ++ ['"']))) (Utf8.encode date) := by
  have marks : ∀ char ∈ " -:+".toList, char.toNat < 128 := by decide
  have ascii : ∀ char ∈ date, char.toNat < 128 := by
    intro char mem
    have kind := isDate char mem
    rw [isInternalDateChar, Bool.or_eq_true, decide_eq_true_eq] at kind
    exact kind.elim ascii_of_isAlphanum (marks char)
  have other : ∀ mark, isInternalDateChar mark = false → mark ∉ date := by
    intro mark noDate mem
    rw [isDate mark mem] at noDate
    cases noDate
  have quotable : IsQuotableText date := by
    intro char mem
    have positive : 0 < char.toNat := by
      rw [Nat.pos_iff_ne_zero]
      exact fun isNul => other '\x00' (by decide) ((Char.toNat_inj.mp isNul : char = '\x00') ▸ mem)
    exact ⟨positive, ascii char mem, fun isReturn => other '\r' (by decide) (isReturn ▸ mem),
      fun isFeed => other '\n' (by decide) (isFeed ▸ mem)⟩
  have isQuoted : '"' :: (date ++ ['"']) = Mail.quoted date := by
    rw [quoted_eq]
    exact (quoted_of_plain (other '"' (by decide)) (other '\\' (by decide))).symm
  rw [isQuoted]
  exact reads_string quotable

theorem reads_flags (cached : CachedMail) :
    Reader.Reads readFlags (Utf8.encode ('(' :: ([' '].intercalate (flagTexts cached) ++ [')'])))
      ((flagTexts cached).map Utf8.encode) := by
  intro rest
  rw [flagTexts]
  cases cached.mail.unread <;> cases cached.deleted <;> rfl

theorem reads_envelope {mail : Mail} {addresses : AddressHeaders}
    (noNul : ∀ text ∈ envelopeStrings mail addresses, '\x00' ∉ text) :
    Reader.Reads readEnvelope (Utf8.encode (buildEnvelope mail addresses)) (envelopeOf mail addresses) :=
  readEnvelope_buildEnvelope noNul

/-! ## The whole response -/

theorem forall₂_asked {asked : Bool} {part : Text} (conveys : Conveys part item) :
    List.Forall₂ Conveys (if asked then [part] else []) (if asked then [item] else []) := by
  cases asked with
  | true => exact .cons conveys .nil
  | false => exact .nil

/-- Whoever asks for the body structure has its message rendered. -/
theorem exists_rendering {cached : CachedMail} {items : Text} (body : Option BodyEntry)
    (asked : asksFor items "BODYSTRUCTURE" = true) : ∃ rfc, rendering cached items body = some rfc := by
  cases body with
  | some body => exact ⟨_, rfl⟩
  | none =>
    have part : "BODY".toList <:+: items.map Char.toUpper :=
      (by decide : "BODY".toList <:+: "BODYSTRUCTURE".toList).trans (contains_iff.mp asked)
    have uses : fetchItemsUseContent items = true := by
      rw [fetchItemsUseContent, asksFor, contains_iff.mpr part]
      rfl
    exact ⟨_, if_pos uses⟩

section Response

variable {casing : Casing} {cached : CachedMail} {items : Text} {uidMode : Bool} {body : Option BodyEntry}

/-- What is asked of the texts of a response: a literal holds no NUL, no bracket is among the field names echoed,
and where the body structure is asked for, every boundary in the message has its position inside. -/
structure Servable (casing : Casing) (cached : CachedMail) (items : Text) (body : Option BodyEntry) : Prop where
  content : ∀ rfc ∈ rendering cached items body, '\x00' ∉ rfc
  envelope : ∀ text ∈ envelopeStrings cached.mail (addressHeaders casing cached.mail body), '\x00' ∉ text
  echo : ∀ asked ∈ parseHeaderFieldsSection items, ']' ∉ asked.1
  boundaries : asksFor items "BODYSTRUCTURE" = true → ∀ rfc ∈ rendering cached items body, BoundariesInside casing rfc

theorem exists_structures (servable : Servable casing cached items body) :
    ∃ structures, structures? casing cached items body = some structures := by
  unfold structures?
  split
  next asked =>
    obtain ⟨rfc, isRendered⟩ := exists_rendering body asked
    obtain ⟨written, isWritten⟩ := Option.isSome_iff_exists.mp
      (isSome_computeBodystructure?_iff.mpr (servable.boundaries asked rfc isRendered))
    rw [isRendered]
    dsimp only
    rw [isWritten]
    exact ⟨_, rfl⟩
  next => exact ⟨_, rfl⟩

theorem grouped_of_structures (areStructures : structures? casing cached items body = some structures) :
    ∀ written ∈ structures, Grouped written := by
  unfold structures? at areStructures
  split at areStructures
  next asked =>
    obtain ⟨rfc, isRendered⟩ := exists_rendering body asked
    rw [isRendered] at areStructures
    obtain ⟨written, isWritten, rfl⟩ := Option.map_eq_some_iff.mp areStructures
    exact List.forall_mem_singleton.mpr (grouped_computeBodystructure? casing isWritten)
  next =>
    cases areStructures
    exact List.forall_mem_nil _

theorem conveys_content (echo : ∀ asked ∈ parseHeaderFieldsSection items, ']' ∉ asked.1) {rfc : Text}
    (noNul : '\x00' ∉ rfc) : List.Forall₂ Conveys (contentParts casing items rfc)
    (contentItems casing items rfc) := by
  have whole : Conveys (literalPart "BODY[]".toList rfc) (.body [] (Utf8.encode rfc)) := by
    have name : "BODY[]".toList = "BODY[".toList ++ [] ++ [']'] := rfl
    have noSection : Utf8.encode [] = [] := rfl
    rw [name, ← noSection]
    exact conveys_section List.not_mem_nil noNul
  unfold contentParts contentItems
  split
  · exact .cons whole .nil
  · split
    next section' fields negate asked =>
      refine .cons (conveys_section (echo _ asked) fun mem => ?_) .nil
      exact (mem_filterHeaderFields mem).elim noNul (by decide)
    next =>
      have noNulHeader : '\x00' ∉ extractHeaders rfc := fun mem => noNul (mem_extractHeaders mem)
      split
      · refine .cons ?_ .nil
        split
        · rw [literalPart_eq]
          exact conveys_value _ rfl (by decide) (by decide) ((reads_text noNulHeader).answers _)
        · exact @conveys_section "HEADER".toList _ (by decide) noNulHeader
      · exact .nil

/-- Each item is read from what is written for it, in the same order. -/
theorem conveys_parts (servable : Servable casing cached items body)
    (grouped : ∀ written ∈ structures, Grouped written) :
    List.Forall₂ Conveys (fetchParts casing cached items uidMode body structures)
      (fetchItems casing cached items uidMode body structures) := by
  have number : ∀ value, Reader.Answers readNumber (Utf8.encode (decimal value)) BehindItem (some value) := by
    intro value rest behind
    rw [encode_octets fun char mem => (digit_octet (isDigit_of_mem_decimal mem)).1]
    exact answers_number value rest (noDigit_behind behind)
  have uid : Conveys ("UID ".toList ++ decimal cached.uid) (.uid cached.uid) :=
    conveys_value "UID".toList rfl (by decide) (by decide) (number cached.uid)
  have flags : Conveys ("FLAGS (".toList ++ [' '].intercalate (flagTexts cached) ++ [')'])
      (.flags ((flagTexts cached).map Utf8.encode)) :=
    conveys_value "FLAGS".toList rfl (by decide) (by decide) ((reads_flags cached).answers _)
  have date : ∀ date : Text, (∀ char ∈ date, isInternalDateChar char = true) →
      Conveys ("INTERNALDATE \"".toList ++ date ++ ['"']) (.internalDate (Utf8.encode date)) := fun date isDate =>
    conveys_value "INTERNALDATE".toList rfl (by decide) (by decide) ((reads_internalDate isDate).answers _)
  have size : ∀ octets, Conveys ("RFC822.SIZE ".toList ++ decimal octets) (.size octets) := fun octets =>
    conveys_value "RFC822.SIZE".toList rfl (by decide) (by decide) (number octets)
  have envelope : Conveys ("ENVELOPE ".toList ++ buildEnvelope cached.mail (addressHeaders casing cached.mail body))
      (.envelope (envelopeOf cached.mail (addressHeaders casing cached.mail body))) :=
    conveys_value "ENVELOPE".toList rfl (by decide) (by decide) ((reads_envelope servable.envelope).answers _)
  have bodyStructure : ∀ written ∈ structures,
      Conveys ("BODYSTRUCTURE ".toList ++ written) (.bodyStructure (Utf8.encode written)) := fun written mem =>
    conveys_value "BODYSTRUCTURE".toList rfl (by decide) (by decide) ((grouped written mem).reads.answers _)
  have whole : ∀ rfc, '\x00' ∉ rfc → Conveys (literalPart "RFC822".toList rfc) (.whole (Utf8.encode rfc)) := by
    intro rfc noNul
    rw [literalPart_eq]
    exact conveys_value _ rfl (by decide) (by decide) ((reads_text noNul).answers _)
  unfold fetchParts fetchItems
  refine List.rel_append (List.rel_append (List.rel_append (List.rel_append (List.rel_append (List.rel_append
    (List.rel_append (forall₂_asked uid) (forall₂_asked flags)) (forall₂_asked
      (date _ (isInternalDateChar_of_mem _)))) (forall₂_asked (size _)))
    (forall₂_asked envelope)) ?_) ?_) ?_
  · rw [List.forall₂_map_left_iff, List.forall₂_map_right_iff, List.forall₂_same]
    exact bodyStructure
  · cases isRendered : rendering cached items body with
    | none => exact .nil
    | some rfc =>
      simp only [Option.toList_some, List.flatMap_cons, List.flatMap_nil, List.append_nil]
      exact conveys_content servable.echo (servable.content rfc isRendered)
  · cases isRendered : rendering cached items body with
    | none => split <;> exact .nil
    | some rfc => exact forall₂_asked (whole rfc (servable.content rfc isRendered))

theorem exists_pairs {α β : Type} {holds : α → β → Prop} {first : List α} {second : List β}
    (each : List.Forall₂ holds first second) :
    ∃ pairs : List (α × β), pairs.map Prod.fst = first ∧ pairs.map Prod.snd = second ∧
      ∀ pair ∈ pairs, holds pair.1 pair.2 := by
  induction each with
  | nil => exact ⟨[], rfl, rfl, List.forall_mem_nil _⟩
  | @cons one two _ _ holdsOne _ ih =>
    obtain ⟨pairs, rfl, rfl, holdsOthers⟩ := ih
    exact ⟨(one, two) :: pairs, rfl, rfl, List.forall_mem_cons.mpr ⟨holdsOne, holdsOthers⟩⟩

theorem Conveys.ne_nil {part : Text} (conveys : Conveys part item) : Utf8.encode part ≠ [] := by
  intro isEmpty
  have read := conveys [32] (.inl rfl)
  rw [isEmpty] at read
  exact Option.some_ne_none _ read.symm

theorem encode_response (parts : List Text) (seq : Nat) :
    Utf8.encode ("* ".toList ++ decimal seq ++ " FETCH (".toList ++ [' '].intercalate parts ++ ")\r\n".toList) =
      asciiOctets "* ".toList ++ (asciiOctets (decimal seq) ++ (asciiOctets " FETCH (".toList ++
        (([32].intercalate (parts.map Utf8.encode) ++ [41]) ++ asciiOctets "\r\n".toList))) := by
  have start : Utf8.encode "* ".toList = asciiOctets "* ".toList := rfl
  have opened : Utf8.encode " FETCH (".toList = asciiOctets " FETCH (".toList := rfl
  have closed : Utf8.encode ")\r\n".toList = [41] ++ asciiOctets "\r\n".toList := rfl
  have number : Utf8.encode (decimal seq) = asciiOctets (decimal seq) :=
    encode_octets fun char mem => (digit_octet (isDigit_of_mem_decimal mem)).1
  simp only [Utf8.encode_append, start, opened, closed, number, encode_intercalate, List.append_assoc]

/-- A list with no item at all is refused. -/
theorem refuses_no_items (rest : Octets) :
    Reader.list readFetchItem 32 41 (41 :: rest).length (41 :: rest) = none := by
  have noName : ∀ name : Octets, itemNamed (41 :: name) = failure := by
    intro name
    simp [itemNamed, asciiOctets]
  have refused : readFetchItem (41 :: rest) = none := by
    show itemNamed ((41 :: rest).takeWhile fun octet => octet ≠ 32 && octet ≠ 91)
      ((41 :: rest).dropWhile fun octet => octet ≠ 32 && octet ≠ 91) = none
    rw [List.takeWhile_cons_of_pos (by decide), noName]
    rfl
  rw [List.length_cons, Reader.list, refused, Option.bind_none]

theorem readFetchResponse_list {parts : Octets} {answer : Option (List FetchItem)} (seq : Nat)
    (answers : Reader.Answers (fun input => Reader.list readFetchItem 32 41 input.length input) parts
      Reader.Anything answer) :
    Reader.Answers readFetchResponse
      (asciiOctets "* ".toList ++ (asciiOctets (decimal seq) ++ (asciiOctets " FETCH (".toList ++
        (parts ++ asciiOctets "\r\n".toList)))) Reader.Anything (answer.map fun items => (seq, items)) := by
  have ends : ∀ items : List FetchItem, Reader.Reads (do
      Reader.expect (asciiOctets "\r\n".toList)
      return (seq, items)) (asciiOctets "\r\n".toList) (seq, items) := fun items =>
    (Reader.reads_expect _).guarded (Reader.Reads.pure (seq, items))
  have list : Reader.Answers (do
      let items ← fun input => Reader.list readFetchItem 32 41 input.length input
      Reader.expect (asciiOctets "\r\n".toList)
      return (seq, items)) (parts ++ asciiOctets "\r\n".toList) Reader.Anything
      (answer.map fun items => (seq, items)) := by
    have bound := answers.bind (fun items => some (seq, items)) (fun _ _ => trivial)
      fun items _ => (ends items).answers Reader.Anything
    have same : (answer.bind fun items => some (seq, items)) = answer.map fun items => (seq, items) := by
      cases answer <;> rfl
    rw [same] at bound
    exact bound
  refine (Reader.reads_expect _).andThen ?_
  have number : Reader.Answers readNumber (asciiOctets (decimal seq)) NoDigit (some seq) := answers_number seq
  refine number.bind (fun seq => answer.map fun items => (seq, items)) ?_ fun read isRead => ?_
  · rintro rest - octet ⟨⟩
    decide
  · obtain rfl := Option.mem_some_iff.mp isRead
    exact (Reader.reads_expect _).andThen list

theorem section_ne_nil {section' : Text} {negate : Bool}
    (asked : parseHeaderFieldsSection items = some (section', fields, negate)) : section' ≠ [] := by
  simp only [parseHeaderFieldsSection, Option.bind_eq_bind, Option.bind_eq_some_iff, Option.pure_def,
    Option.some.injEq, Prod.mk.injEq] at asked
  obtain ⟨start, -, opened, -, closed, -, rfl, -, -⟩ := asked
  exact List.append_ne_nil_of_right_ne_nil _ (List.cons_ne_nil _ _)

/-- Of what is cut from a message, the section without a name is the whole of it. -/
theorem mem_contentItems {rfc : Text} (mem : item ∈ contentItems casing items rfc) :
    (∃ section' content, item = .body section' content ∧ (section' = [] → content = Utf8.encode rfc)) ∨
      ∃ content, item = .header content := by
  unfold contentItems at mem
  split at mem
  · obtain rfl := List.mem_singleton.mp mem
    exact .inl ⟨_, _, rfl, fun _ => rfl⟩
  · split at mem
    next section' fields negate asked =>
      obtain rfl := List.mem_singleton.mp mem
      refine .inl ⟨_, _, rfl, fun isEmpty => absurd ?_ (section_ne_nil asked)⟩
      exact Utf8.encode_injective (isEmpty.trans rfl)
    next =>
      split at mem
      · obtain rfl := List.mem_singleton.mp mem
        split
        · exact .inr ⟨_, rfl⟩
        · exact .inl ⟨_, _, rfl, nofun⟩
      · exact absurd mem List.not_mem_nil

theorem size_of_mem {size : Nat} (mem : .size size ∈ fetchItems casing cached items uidMode body structures) :
    size = ((rendering cached items body).map fun rfc => (Utf8.encode rfc).length).getD 0 := by
  simp only [fetchItems, List.mem_append, List.mem_ite_nil_right, List.mem_singleton, reduceCtorEq, and_false,
    or_false, false_or, List.mem_map, List.mem_flatMap, exists_false, FetchItem.size.injEq] at mem
  obtain ⟨-, rfl⟩ | ⟨rfc, -, inContent⟩ := mem
  · rfl
  · obtain ⟨_, _, isBody, -⟩ | ⟨_, isHeader⟩ := mem_contentItems inContent
    · cases isBody
    · cases isHeader

/-- What is sent as the whole message is the rendering of it. -/
theorem rendering_of_mem {content : Octets}
    (mem : .body [] content ∈ fetchItems casing cached items uidMode body structures ∨
      .whole content ∈ fetchItems casing cached items uidMode body structures) :
    ∃ rfc, rendering cached items body = some rfc ∧ content = Utf8.encode rfc := by
  simp only [fetchItems, List.mem_append, List.mem_ite_nil_right, List.mem_singleton, reduceCtorEq, and_false,
    or_false, false_or, List.mem_map, List.mem_flatMap, exists_false, Option.mem_toList,
    FetchItem.whole.injEq] at mem
  obtain ⟨rfc, isRendered, inContent⟩ | ⟨rfc, isRendered, inContent⟩ | ⟨-, rfc, isRendered, rfl⟩ := mem
  · obtain ⟨section', text, isBody, isWhole⟩ | ⟨_, isHeader⟩ := mem_contentItems inContent
    · cases isBody
      exact ⟨rfc, isRendered, isWhole rfl⟩
    · cases isHeader
  · obtain ⟨_, _, isBody, -⟩ | ⟨_, isHeader⟩ := mem_contentItems inContent
    · cases isBody
    · cases isHeader
  · exact ⟨rfc, isRendered, rfl⟩

theorem size_of_content {size : Nat} {content : Octets}
    (isSize : .size size ∈ fetchItems casing cached items uidMode body structures)
    (isContent : .body [] content ∈ fetchItems casing cached items uidMode body structures ∨
      .whole content ∈ fetchItems casing cached items uidMode body structures) : content.length = size := by
  obtain ⟨rfc, isRendered, rfl⟩ := rendering_of_mem isContent
  rw [size_of_mem isSize, isRendered]
  rfl

/-- The response is written, and a client reads exactly the items that it is served, each with its value, and no
octet of the response is left; a response without an item is the one it refuses. Where it is told the size of the
message, that is the number of octets of the message it is sent. -/
theorem readFetchResponse_buildFetchResponse (servable : Servable casing cached items body) (seq : Nat) :
    ∃ structures response, structures? casing cached items body = some structures ∧
      buildFetchResponse? casing cached items uidMode body seq = some response ∧
      (∀ rest, readFetchResponse (Utf8.encode response ++ rest) =
        if fetchItems casing cached items uidMode body structures = [] then none
        else some ((seq, fetchItems casing cached items uidMode body structures), rest)) ∧
      ∀ size content, .size size ∈ fetchItems casing cached items uidMode body structures →
        .body [] content ∈ fetchItems casing cached items uidMode body structures ∨
          .whole content ∈ fetchItems casing cached items uidMode body structures → content.length = size := by
  obtain ⟨structures, areStructures⟩ := exists_structures servable
  obtain ⟨pairs, areParts, areItems, conveys⟩ := exists_pairs
    (@conveys_parts structures casing cached items uidMode body servable (grouped_of_structures areStructures))
  refine ⟨structures, _, areStructures, by rw [buildFetchResponse?, areStructures, Option.map_some], ?_,
    fun size content isSize isContent => size_of_content isSize isContent⟩
  have answers : Reader.Answers (fun input => Reader.list readFetchItem 32 41 input.length input)
      ([32].intercalate ((pairs.map Prod.fst).map Utf8.encode) ++ [41]) Reader.Anything
      (if pairs = [] then none else some (pairs.map Prod.snd)) := by
    intro rest _
    by_cases isEmpty : pairs = []
    · rw [if_pos isEmpty, isEmpty]
      exact refuses_no_items rest
    · rw [if_neg isEmpty, List.map_map]
      refine Reader.answers_list (fun pair mem => conveys pair mem) isEmpty (by decide) ?_ rest
      have long := @length_le_intercalate (pairs.map (Utf8.encode ∘ Prod.fst)) fun part mem => by
        obtain ⟨pair, inPairs, rfl⟩ := List.mem_map.mp mem
        exact (conveys pair inPairs).ne_nil
      rw [List.length_map] at long
      rw [List.length_append, List.length_append]
      omega
  intro rest
  rw [encode_response, ← areParts, ← areItems]
  refine (readFetchResponse_list seq answers rest trivial).trans ?_
  by_cases isEmpty : pairs = []
  · simp [isEmpty]
  · simp [isEmpty]

end Response

/-- The items that are asked for. -/
def coldItems : Text := "(FLAGS ENVELOPE BODYSTRUCTURE BODY.PEEK[HEADER.FIELDS (from)])".toList

/-- A message that is not loaded, with a flag to delete it, and one field of its header. -/
theorem readFetchResponse_cold : ∃ structures response,
      buildFetchResponse? .ascii ⟨brokenSubjectMail, false, 7, true⟩ coldItems true none 3 = some response ∧
      readFetchResponse (Utf8.encode response ++ [65]) =
        if fetchItems .ascii ⟨brokenSubjectMail, false, 7, true⟩ coldItems true none structures = [] then none
        else some ((3, fetchItems .ascii ⟨brokenSubjectMail, false, 7, true⟩ coldItems true none structures), [65]) := by
  have written : ∀ rfc ∈ rendering ⟨brokenSubjectMail, false, 7, true⟩ coldItems none,
      rfc.elem '\x00' = false ∧ (computeBodystructure? .ascii rfc).isSome = true := by
    decide +kernel
  have content : ∀ rfc ∈ rendering ⟨brokenSubjectMail, false, 7, true⟩ coldItems none, '\x00' ∉ rfc :=
    fun rfc isRendered mem => Bool.false_ne_true ((written rfc isRendered).1.symm.trans (List.elem_iff.mpr mem))
  have envelope : ∀ text ∈ envelopeStrings brokenSubjectMail (addressHeaders .ascii brokenSubjectMail none),
      '\x00' ∉ text := by
    decide +kernel
  have echo : ∀ asked ∈ parseHeaderFieldsSection coldItems, ']' ∉ asked.1 := by
    decide +kernel
  have boundaries : ∀ rfc ∈ rendering ⟨brokenSubjectMail, false, 7, true⟩ coldItems none,
      BoundariesInside .ascii rfc :=
    fun rfc isRendered => isSome_computeBodystructure?_iff.mp (written rfc isRendered).2
  obtain ⟨structures, response, -, isResponse, reads, -⟩ := @readFetchResponse_buildFetchResponse _ _ _ true _
    ⟨content, envelope, echo, fun _ => boundaries⟩ 3
  exact ⟨structures, response, isResponse, reads [65]⟩

end TutaBridge.Imap
