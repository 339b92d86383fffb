import TutaBridge.Mail.EncodedWords
import TutaBridge.Mail.Rendering
import TutaBridge.Store.BodyCache

/-!
# Lists of addresses

The recipients of a mail are written as a list of mailboxes and read back from it. A comma
in a quoted display name, and one between angle brackets, separates nothing.
-/

namespace TutaBridge.Mail

open TutaBridge.Std TutaBridge.Std.Text Store Tuta

/-! ## One mailbox -/

/-- The loop of `unquote`: what a backslash escapes stands for itself. -/
def unescape : Text → Text
  | [] => []
  | [char] => if char = '\\' then [] else [char]
  | char :: next :: rest =>
    if char = '\\' then next :: unescape rest else char :: unescape (next :: rest)

/-- `unquote`. -/
def unquote (phrase : Text) : Text :=
  if phrase.head? = some '"' ∧ phrase.tail.getLast? = some '"' then unescape phrase.tail.dropLast
  else trimMatches '"' phrase

/-- `parse_address_single`: the display name and the address. -/
def parseMailbox (casing : Casing) (raw : Text) : Text × Text :=
  let raw := trim raw
  if '<' ∈ raw then
    match splitOnce '>' (raw.rtakeWhile (· ≠ '<')) with
    | some (address, _) =>
      let name := trim (raw.rdropWhile (· ≠ '<')).dropLast
      (decodeHeaderValue casing (unquote name), trim address)
    | none => ([], raw)
  else ([], raw)

/-! ## A list of them -/

/-- The variables of `parse_address_list`, with the entries as they were written. -/
structure EntryReader where
  result : List Text
  depth : Int
  inQuotes : Bool
  escaped : Bool
  current : Text

namespace EntryReader

def push (reader : EntryReader) (char : Char) : EntryReader :=
  { reader with current := reader.current ++ [char] }

/-- The entries with the one being read. -/
def finish (reader : EntryReader) : List Text :=
  if trim reader.current = [] then reader.result else reader.result ++ [trim reader.current]

/-- The loop body of `parse_address_list`. -/
def char (reader : EntryReader) (char : Char) : EntryReader :=
  if reader.escaped then { reader.push char with escaped := false }
  else if char = '"' then { reader.push char with inQuotes := !reader.inQuotes }
  else if char = '\\' ∧ reader.inQuotes then { reader.push char with escaped := true }
  else if char = '<' ∧ ¬ reader.inQuotes then { reader.push char with depth := reader.depth + 1 }
  else if char = '>' ∧ ¬ reader.inQuotes then { reader.push char with depth := reader.depth - 1 }
  else if char = ',' ∧ reader.depth = 0 ∧ ¬ reader.inQuotes then
    { reader with result := reader.finish, current := [] }
  else reader.push char

end EntryReader

/-- The entries of `parse_address_list` as they were written. -/
def addressEntries (raw : Text) : List Text :=
  (raw.foldl EntryReader.char ⟨[], 0, false, false, []⟩).finish

/-- `parse_address_list`. -/
def parseMailboxes (casing : Casing) (raw : Text) : List (Text × Text) :=
  (addressEntries raw).map (parseMailbox casing)

/-! ## The address headers of a message -/

/-- `AddressHeaders`. -/
structure AddressHeaders where
  recipients : List (Text × Text)
  cc : List (Text × Text)
  bcc : List (Text × Text)
  replyTo : List (Text × Text)
deriving DecidableEq, Repr

/-- The list of `address_headers_of` under a name. -/
def addressList (casing : Casing) (headers : List (Text × Text)) (name : String) : List (Text × Text) :=
  ((getHeader headers name).map (parseMailboxes casing)).getD []

/-- `address_headers_of`. -/
def addressHeadersOf (casing : Casing) (headers : List (Text × Text)) : AddressHeaders :=
  ⟨addressList casing headers "to", addressList casing headers "cc",
    addressList casing headers "bcc", addressList casing headers "reply-to"⟩

/-- `parse_address_headers`. -/
def parseAddressHeaders (casing : Casing) (raw : Text) : AddressHeaders :=
  addressHeadersOf casing (parseHeaders casing (headerSection raw))

def mailboxOf (recipient : MailAddress) : Text × Text :=
  (recipient.name.toList, recipient.address.toList)

/-- `address_headers`: from the details while they are in memory, else from the message
kept on disk, and without either from the mail. -/
def addressHeaders (casing : Casing) (mail : Mail) (body : Option BodyEntry) : AddressHeaders :=
  match body with
  | some entry =>
    match entry.details with
    | some details =>
      ⟨details.recipients.toRecipients.map mailboxOf, details.recipients.ccRecipients.map mailboxOf,
        details.recipients.bccRecipients.map mailboxOf, replyToAddresses details⟩
    | none => parseAddressHeaders casing entry.rfc2822.toList
  | none => ⟨mail.firstRecipient.toList.map mailboxOf, [], [], []⟩

/-! ## What the list of mailboxes is split into -/

/-- Reading a text where a mailbox may begin ends where another may, with the text read. -/
def Passes (text : Text) : Prop :=
  ∀ (result : List Text) (current : Text), text.foldl EntryReader.char ⟨result, 0, false, false, current⟩ =
      ⟨result, 0, false, false, current ++ text⟩

namespace Passes

theorem append {first second : Text} (one : Passes first) (two : Passes second) : Passes (first ++ second) := by
  intro result current
  rw [List.foldl_append, one, two, List.append_assoc]

/-- Characters that delimit nothing. -/
def IsPlain (text : Text) : Prop :=
  ∀ char ∈ text, char ≠ '"' ∧ char ≠ '<' ∧ char ≠ '>' ∧ char ≠ ','

theorem foldl_plain {text : Text} (plain : IsPlain text) (result : List Text) (depth : Int) (current : Text) :
    text.foldl EntryReader.char ⟨result, depth, false, false, current⟩ =
      ⟨result, depth, false, false, current ++ text⟩ := by
  induction text generalizing current with
  | nil => simp
  | cons next rest ih =>
    obtain ⟨⟨quote, opening, closing, comma⟩, plain⟩ := List.forall_mem_cons.mp plain
    have step : EntryReader.char ⟨result, depth, false, false, current⟩ next =
        ⟨result, depth, false, false, current ++ [next]⟩ := by
      simp [EntryReader.char, EntryReader.push, quote, opening, closing, comma]
    rw [List.foldl_cons, step, ih plain, List.append_assoc, List.singleton_append]

theorem of_plain {text : Text} (plain : IsPlain text) : Passes text := fun result current =>
  foldl_plain plain result 0 current

theorem of_angle {address : Text} (plain : IsPlain address) : Passes ('<' :: (address ++ ['>'])) := by
  intro result current
  have opens : EntryReader.char ⟨result, 0, false, false, current⟩ '<' =
      ⟨result, 1, false, false, current ++ ['<']⟩ := by
    simp [EntryReader.char, EntryReader.push]
  have closes : ∀ current, EntryReader.char ⟨result, 1, false, false, current⟩ '>' =
      ⟨result, 0, false, false, current ++ ['>']⟩ := by
    simp [EntryReader.char, EntryReader.push]
  rw [List.foldl_cons, opens, List.foldl_append, foldl_plain plain, List.foldl_cons, closes, List.foldl_nil]
  simp

end Passes

/-- What a quoted string is written with for a character. -/
def escapeChar (char : Char) : Text :=
  if char = '\\' then ['\\', '\\'] else if char = '"' then ['\\', '"'] else [char]

/-- The two replacements of `format_name_and_address` are one. -/
theorem escape_eq (name : Text) :
    ((name.flatMap fun char => if char = '\\' then ['\\', '\\'] else [char]).flatMap fun char =>
      if char = '"' then ['\\', '"'] else [char]) = name.flatMap escapeChar := by
  rw [List.flatMap_assoc]
  refine List.flatMap_congr fun char _ => ?_
  unfold escapeChar
  split
  · rfl
  · simp

theorem unescape_cons {char : Char} (noEscape : char ≠ '\\') (rest : Text) :
    unescape (char :: rest) = char :: unescape rest := by
  cases rest <;> simp [unescape, noEscape]

theorem unescape_escape (name : Text) : unescape (name.flatMap escapeChar) = name := by
  induction name with
  | nil => rfl
  | cons char rest ih =>
    rw [List.flatMap_cons, escapeChar]
    split_ifs with isEscape isQuote
    · simp [unescape, isEscape, ih]
    · simp [unescape, isQuote, ih]
    · rw [List.singleton_append, unescape_cons isEscape, ih]

theorem Passes.of_quoted (name : Text) : Passes ('"' :: (name.flatMap escapeChar ++ ['"'])) := by
  have inside : ∀ (result : List Text) (current : Text),
      (name.flatMap escapeChar).foldl EntryReader.char ⟨result, 0, true, false, current⟩ =
        ⟨result, 0, true, false, current ++ name.flatMap escapeChar⟩ := by
    intro result
    induction name with
    | nil => simp
    | cons char rest ih =>
      intro current
      have step : (escapeChar char).foldl EntryReader.char ⟨result, 0, true, false, current⟩ =
          ⟨result, 0, true, false, current ++ escapeChar char⟩ := by
        unfold escapeChar
        split_ifs with isEscape isQuote
        · simp [EntryReader.char, EntryReader.push]
        · simp [EntryReader.char, EntryReader.push]
        · simp [EntryReader.char, EntryReader.push, isEscape, isQuote]
      rw [List.flatMap_cons, List.foldl_append, step, ih, List.append_assoc]
  intro result current
  have opens : EntryReader.char ⟨result, 0, false, false, current⟩ '"' =
      ⟨result, 0, true, false, current ++ ['"']⟩ := by
    simp [EntryReader.char, EntryReader.push]
  have closes : ∀ current, EntryReader.char ⟨result, 0, true, false, current⟩ '"' =
      ⟨result, 0, false, false, current ++ ['"']⟩ := by
    simp [EntryReader.char, EntryReader.push]
  rw [List.foldl_cons, opens, List.foldl_append, inside, List.foldl_cons, closes, List.foldl_nil]
  simp

/-! ## White space around a list -/

/-- A reader that has read white space before its entry. -/
def EntryReader.indented (reader : EntryReader) (blanks : Text) : EntryReader :=
  { reader with current := blanks ++ reader.current }

section Blanks

variable {blanks : Text}

section

variable (blank : ∀ char ∈ blanks, isWhitespace char = true)

include blank

theorem finish_indents (reader : EntryReader) : (reader.indented blanks).finish = reader.finish := by
  unfold EntryReader.finish EntryReader.indented
  simp only [trim_append_left blank]

/-- Reading one character keeps the white space apart, or ends the entry that it stands before. -/
theorem char_indents (reader : EntryReader) (next : Char) :
    (reader.indented blanks).char next = (reader.char next).indented blanks ∨
      (reader.indented blanks).char next = reader.char next := by
  have either : ∀ {condition : Prop} [Decidable condition] 
      {one two oneIndented twoIndented : EntryReader},
      (oneIndented = one.indented blanks ∨ oneIndented = one) →
      (twoIndented = two.indented blanks ∨ twoIndented = two) →
      ((if condition then oneIndented else twoIndented) = (if condition then one else two).indented blanks ∨
        (if condition then oneIndented else twoIndented) = if condition then one else two) := by
    intro condition _ one two oneIndented twoIndented left right
    split
    · exact left
    · exact right
  have pushed : (reader.indented blanks).push next = (reader.push next).indented blanks := by
    simp [EntryReader.indented, EntryReader.push]
  unfold EntryReader.char
  rw [finish_indents blank, pushed]
  exact either (.inl rfl) (either (.inl rfl) (either (.inl rfl) (either (.inl rfl)
    (either (.inl rfl) (either (.inr rfl) (.inl rfl))))))

/-- White space before a list belongs to no entry. -/
theorem finish_foldl_indents (text : Text) (reader : EntryReader) :
    (text.foldl EntryReader.char (reader.indented blanks)).finish = (text.foldl EntryReader.char reader).finish := by
  induction text generalizing reader with
  | nil => exact finish_indents blank reader
  | cons next rest ih =>
    rw [List.foldl_cons, List.foldl_cons]
    rcases char_indents blank reader next with indented | same
    · rw [indented, ih]
    · rw [same]

/-- White space behind a list belongs to no entry. -/
theorem finish_foldl_blanks
    (reader : EntryReader) : (blanks.foldl EntryReader.char reader).finish = reader.finish := by
  induction blanks generalizing reader with
  | nil => rfl
  | cons next rest ih =>
    obtain ⟨isBlank, blank⟩ := List.forall_mem_cons.mp blank
    have notComma : next ≠ ',' := by
      rintro rfl
      exact absurd isBlank (by decide)
    have step : (reader.char next).result = reader.result ∧
        (reader.char next).current = reader.current ++ [next] := by
      unfold EntryReader.char
      split_ifs <;> simp_all [EntryReader.push]
    have one : ∀ char ∈ [next], isWhitespace char = true := by simpa using isBlank
    rw [List.foldl_cons, ih blank, EntryReader.finish, EntryReader.finish, step.1,
      step.2, trim_append_right one]

end

end Blanks

theorem addressEntries_trim (text : Text) : addressEntries (trim text) = addressEntries text := by
  obtain ⟨before, after, blankBefore, blankAfter, split⟩ := trim_parts text
  have plain : Passes.IsPlain before := by
    intro char mem
    have isBlank := blankBefore char mem
    refine ⟨?_, ?_, ?_, ?_⟩ <;> rintro rfl <;> exact absurd isBlank (by decide)
  conv_rhs => rw [addressEntries, split, List.foldl_append, List.foldl_append,
    finish_foldl_blanks blankAfter, Passes.of_plain plain]
  exact (finish_foldl_indents blankBefore (trim text) ⟨[], 0, false, false, []⟩).symm.trans
    (by rw [EntryReader.indented, List.append_nil, List.nil_append])

/-- Mailboxes that are joined with commas are the entries of the list. -/
theorem addressEntries_intercalate {entries : List Text}
    (solid : ∀ entry ∈ entries, Passes entry ∧ trim entry ≠ []) :
    addressEntries (", ".toList.intercalate entries) = entries.map trim := by
  have reads : ∀ (entries : List Text), (∀ entry ∈ entries, Passes entry ∧ trim entry ≠ []) →
      ∀ (result : List Text) (blanks : Text), (∀ char ∈ blanks, isWhitespace char = true) →
        ((", ".toList.intercalate entries).foldl EntryReader.char
          ⟨result, 0, false, false, blanks⟩).finish = result ++ entries.map trim := by
    intro entries
    induction entries with
    | nil =>
      intro _ result blanks blank
      have nothing : trim blanks = [] := by
        have dropped := @trim_append_left [] blanks blank
        rw [List.append_nil] at dropped
        exact dropped
      simp [EntryReader.finish, nothing]
    | cons entry rest ih =>
      intro solid result blanks blank
      obtain ⟨⟨passes, visible⟩, solid⟩ := List.forall_mem_cons.mp solid
      have trimmed : trim (blanks ++ entry) = trim entry := trim_append_left blank
      cases rest with
      | nil =>
        rw [List.intercalate_singleton, passes, EntryReader.finish]
        dsimp only
        rw [trimmed, if_neg visible]
        rfl
      | cons next rest =>
        have comma : EntryReader.char ⟨result, 0, false, false, blanks ++ entry⟩ ',' =
            ⟨result ++ [trim entry], 0, false, false, []⟩ := by
          simp [EntryReader.char, EntryReader.finish, trimmed, visible]
        have space : EntryReader.char ⟨result ++ [trim entry], 0, false, false, []⟩ ' ' =
            ⟨result ++ [trim entry], 0, false, false, [' ']⟩ := by
          simp [EntryReader.char, EntryReader.push]
        have separator : ", ".toList = [',', ' '] := rfl
        rw [List.intercalate_cons_cons, List.append_assoc, List.foldl_append, passes,
          List.foldl_append, separator, List.foldl_cons, comma, List.foldl_cons, space,
          List.foldl_nil, ← separator, ih solid _ _ (by decide),
          List.append_assoc]
        rfl
  exact reads entries solid [] [] (by simp)

/-! ## Every mailbox is one entry -/

/-- The address that `format_name_and_address` writes. -/
def sanitized (address : Text) : Text := address.filter fun char => !delimitsMailbox char

theorem solid_of_mem_sanitized {address : Text} {char : Char} (mem : char ∈ sanitized address) :
    isWhitespace char = false ∧ char ∉ "<>,;\"()".toList := by
  have kept := (List.mem_filter.mp mem).2
  simp only [delimitsMailbox, Bool.not_eq_true', Bool.or_eq_false_iff, List.any_eq_false,
    decide_eq_true_eq] at kept
  exact ⟨kept.1, fun delimits => kept.2 char delimits rfl⟩

theorem plain_sanitized (address : Text) : Passes.IsPlain (sanitized address) := by
  intro char mem
  have solid := (solid_of_mem_sanitized mem).2
  refine ⟨?_, ?_, ?_, ?_⟩ <;> rintro rfl <;> exact solid (by decide)

theorem trim_sanitized (address : Text) : trim (sanitized address) = sanitized address :=
  trim_eq_self fun _ mem => (solid_of_mem_sanitized mem).1

/-- A display name as it is written: quoted, as it is, or as an encoded word. -/
def writtenName (name : Text) : Text :=
  if needsQuoting name then '"' :: (name.flatMap escapeChar ++ ['"']) else encodeHeaderValue name

theorem formatNameAndAddress_eq (name address : Text) : formatNameAndAddress name address =
      if name = [] then sanitized address
      else writtenName name ++ ' ' :: '<' :: (sanitized address ++ ['>']) := by
  unfold formatNameAndAddress writtenName
  rw [escape_eq]
  split
  · rfl
  · split <;> simp [sanitized]

/-- A name that is neither quoted nor encoded has nothing in it that delimits. -/
theorem plain_of_bare {name : Text} (bare : needsQuoting name = false)
    (plain : (isAscii name && !hasBreak name) = true) : ∀ char ∈ name, isRfc5322Special char = false := by
  rw [needsQuoting, plain, Bool.true_and] at bare
  simpa using bare

theorem mem_word {encoded : Text} {char : Char} (mem : char ∈ '=' :: '?' :: wordTail encoded) :
    char ∈ "=?UTF-8B".toList ∨ char ∈ encoded := by
  have isWord : '=' :: '?' :: wordTail encoded = "=?UTF-8?B?".toList ++ (encoded ++ "?=".toList) := by
    simp [wordTail]
  have start : ∀ char ∈ "=?UTF-8?B?".toList, char ∈ "=?UTF-8B".toList := by decide
  have stop : ∀ char ∈ "?=".toList, char ∈ "=?UTF-8B".toList := by decide
  rw [isWord, List.mem_append, List.mem_append] at mem
  rcases mem with inStart | inEncoded | inStop
  · exact .inl (start char inStart)
  · exact .inr inEncoded
  · exact .inl (stop char inStop)

theorem passes_writtenName (name : Text) : Passes (writtenName name) := by
  unfold writtenName
  split
  · exact .of_quoted name
  next bare =>
    refine .of_plain fun char mem => ?_
    rw [encodeHeaderValue_eq] at mem
    split at mem
    next plain =>
      have noSpecial := plain_of_bare (Bool.not_eq_true _ ▸ bare) plain char mem
      refine ⟨?_, ?_, ?_, ?_⟩ <;> rintro rfl <;> exact absurd noSpecial (by decide)
    next =>
      have inWord : char ∈ "=?UTF-8B".toList ∨ char ∈ base64Text name := mem_word mem
      rcases inWord with frame | encoded
      · have table : ∀ char ∈ "=?UTF-8B".toList, char ≠ '"' ∧ char ≠ '<' ∧ char ≠ '>' ∧ char ≠ ',' := by
          decide
        exact table char frame
      · refine ⟨?_, ?_, ?_, ?_⟩ <;> rintro rfl <;>
          exact not_mem_base64Text (by decide) (by decide) name encoded

theorem passes_formatNameAndAddress (name address : Text) : Passes (formatNameAndAddress name address) := by
  rw [formatNameAndAddress_eq]
  split
  · exact .of_plain (plain_sanitized address)
  · have blank : Passes [' '] := .of_plain (by simp [Passes.IsPlain])
    exact (passes_writtenName name).append (blank.append (.of_angle (plain_sanitized address)))

theorem trim_formatNameAndAddress_ne_nil {address : Text} (notEmpty : sanitized address ≠ [])
    (name : Text) : trim (formatNameAndAddress name address) ≠ [] := by
  rw [formatNameAndAddress_eq]
  split
  · rwa [trim_sanitized]
  · have enclosed := @trim_append_enclosed '<' '>' (by decide) (by decide)
      (writtenName name ++ [' ']) (sanitized address)
    rw [List.append_assoc, List.singleton_append] at enclosed
    rw [enclosed]
    simp

/-! ## Every mailbox is read back -/

theorem parseMailbox_trim (casing : Casing) (raw : Text) :
    parseMailbox casing (trim raw) = parseMailbox casing raw := by
  rw [parseMailbox, trim_trim, parseMailbox]

theorem parseMailbox_sanitized (casing : Casing) (address : Text) :
    parseMailbox casing (sanitized address) = ([], sanitized address) := by
  have noAngle : '<' ∉ sanitized address := fun mem => (plain_sanitized address _ mem).2.1 rfl
  rw [parseMailbox, trim_sanitized]
  exact if_neg noAngle

/-- The address between angle brackets is read, and what stands before it as the name. -/
theorem parseMailbox_angle (casing : Casing) (before address : Text) :
    parseMailbox casing (before ++ '<' :: (sanitized address ++ ['>'])) =
      (decodeHeaderValue casing (unquote (trim before)), sanitized address) := by
  have noOpening : ∀ char ∈ sanitized address ++ ['>'], decide (char ≠ '<') = true := by
    intro char mem
    rcases List.mem_append.mp mem with inAddress | isClosing
    · simpa using (plain_sanitized address char inAddress).2.1
    · rw [List.mem_singleton.mp isClosing]
      decide
  have noClosing : '>' ∉ sanitized address := fun mem =>
    (plain_sanitized address _ mem).2.2.1 rfl
  have inside := @rtakeWhile_append_cons Char (fun char => decide (char ≠ '<')) (trimStart before)
    (sanitized address ++ ['>']) '<' (by decide) noOpening
  have outside := @rdropWhile_append_cons Char (fun char => decide (char ≠ '<')) (trimStart before)
    (sanitized address ++ ['>']) '<' (by decide) noOpening
  rw [parseMailbox, trim_append_enclosed (by decide) (by decide)]
  dsimp only
  rw [if_pos (by simp), inside, splitOnce_append noClosing, outside]
  simp only [List.dropLast_concat, trim_trimStart, trim_sanitized]

theorem unquote_bare {phrase : Text} (absent : '"' ∉ phrase) : unquote phrase = phrase := by
  have noQuote : phrase.head? ≠ some '"' := fun isHead => absent (List.mem_of_head? isHead)
  rw [unquote, if_neg fun quoted => noQuote quoted.1, trimMatches_eq_self absent]

theorem unquote_quoted (name : Text) : unquote ('"' :: (name.flatMap escapeChar ++ ['"'])) = name := by
  rw [unquote, if_pos (by simp), List.tail_cons, List.dropLast_concat, unescape_escape]

/-- A display name without an encoded word in it is read back, up to the white space around
it. -/
theorem decode_writtenName (casing : Casing) {name : Text} (plain : contains name ['=', '?'] = false) :
    trim (decodeHeaderValue casing (unquote (trim (writtenName name ++ [' '])))) = trim name := by
  rw [trim_append_right (by decide), writtenName]
  split
  next quoted =>
    have enclosed := @trim_append_enclosed '"' '"' (by decide) (by decide) [] (name.flatMap escapeChar)
    rw [List.nil_append, trimStart, List.dropWhile_nil, List.nil_append] at enclosed
    rw [enclosed, unquote_quoted, decodeHeaderValue_plain plain, trim_trim]
  next bare =>
    rw [encodeHeaderValue_eq]
    split
    next ascii =>
      have noSpecial := plain_of_bare (Bool.not_eq_true _ ▸ bare) ascii
      have noQuote : '"' ∉ trim name := by
        intro mem
        obtain ⟨before, after, -, -, split⟩ := trim_parts name
        have inName : '"' ∈ name := by
          rw [split]
          simp [mem]
        exact absurd (noSpecial '"' inName) (by decide)
      have stillPlain : contains (trim name) ['=', '?'] = false := contains_trim plain
      rw [unquote_bare noQuote, decodeHeaderValue_plain stillPlain, trim_trim, trim_trim]
    next =>
      have noQuote : '"' ∉ '=' :: '?' :: wordTail (base64Text name) := by
        intro mem
        rcases mem_word mem with frame | encoded
        · exact absurd frame (by decide)
        · exact not_mem_base64Text (by decide) (by decide) name encoded
      rw [trim_word, unquote_bare noQuote, decodeHeaderValue_word]

/-- A recipient read back: its address as it is written, and its name up to white space
around it, where that holds no encoded word. -/
def ReadBack (recipient read : Text × Text) : Prop :=
  read.2 = sanitized recipient.2 ∧ (contains recipient.1 ['=', '?'] = false → trim read.1 = trim recipient.1)

theorem parseMailbox_readBack (casing : Casing) (name address : Text) :
    ReadBack (name, address) (parseMailbox casing (formatNameAndAddress name address)) := by
  rw [formatNameAndAddress_eq]
  split
  next noName =>
    rw [parseMailbox_sanitized, noName]
    exact ⟨rfl, fun _ => rfl⟩
  next =>
    have read := parseMailbox_angle casing (writtenName name ++ [' ']) address
    rw [List.append_assoc, List.singleton_append] at read
    have decoded := @decode_writtenName casing name
    rw [read, ReadBack]
    dsimp only
    exact ⟨rfl, decoded⟩

/-- A list of recipients is read back one by one. -/
theorem parseMailboxes_readBack (casing : Casing) {recipients : List (Text × Text)}
    (addressed : ∀ recipient ∈ recipients, sanitized recipient.2 ≠ []) :
    List.Forall₂ ReadBack recipients
      (parseMailboxes casing (trim (", ".toList.intercalate (recipients.map fun recipient =>
        formatNameAndAddress recipient.1 recipient.2)))) := by
  have solid : ∀ entry ∈ recipients.map fun recipient =>
      formatNameAndAddress recipient.1 recipient.2, Passes entry ∧ trim entry ≠ [] := by
    intro entry mem
    obtain ⟨recipient, inRecipients, rfl⟩ := List.mem_map.mp mem
    exact ⟨passes_formatNameAndAddress _ _,
      trim_formatNameAndAddress_ne_nil (addressed recipient inRecipients) _⟩
  rw [parseMailboxes, addressEntries_trim, addressEntries_intercalate solid, List.map_map,
    List.map_map, List.forall₂_map_right_iff, List.forall₂_same]
  intro recipient _
  simp only [Function.comp_apply, parseMailbox_trim]
  exact parseMailbox_readBack casing recipient.1 recipient.2

/-! ## The lists of a message -/

/-- The recipients of a header are read back from it, none of them where it is not written. -/
theorem addressList_readBack (casing : Casing) {before after : List (String × Text)}
    {header name : String} (named : header.toList.map Char.toLower = name.toList)
    (absentBefore : Lacks before name) (absentAfter : Lacks after name) {recipients : List (Text × Text)}
    (addressed : ∀ recipient ∈ recipients, sanitized recipient.2 ≠ []) : List.Forall₂ ReadBack recipients
      (addressList casing (readFields (before ++ (addressField header (recipients.map fun recipient =>
        formatNameAndAddress recipient.1 recipient.2) ++ after))) name) := by
  rw [addressList, getHeader_append absentBefore]
  cases recipients with
  | nil =>
    have absent : getHeader (readFields after) name = none := getHeader_none absentAfter
    simp [addressField, absent]
  | cons recipient rest =>
    have read := parseMailboxes_readBack casing addressed
    simpa [addressField, readFields, getHeader, named] using read

theorem sanitized_trim (address : Text) : sanitized (trim address) = sanitized address := by
  have nothing : ∀ blanks : Text, (∀ char ∈ blanks, isWhitespace char = true) → sanitized blanks = [] := by
    intro blanks blank
    rw [sanitized, List.filter_eq_nil_iff]
    intro char mem
    simp [delimitsMailbox, blank char mem]
  obtain ⟨before, after, blankBefore, blankAfter, split⟩ := trim_parts address
  conv_rhs => rw [split, sanitized, List.filter_append, List.filter_append, ← sanitized, ← sanitized,
    ← sanitized, nothing before blankBefore, nothing after blankAfter, List.nil_append,
    List.append_nil]

/-- Entries whose addresses hold something are all taken. -/
theorem replyToAddresses_eq {details : MailDetails}
    (addressed : ∀ replyTo ∈ details.replyTos, sanitized replyTo.address.toList ≠ []) : replyToAddresses details =
      details.replyTos.map fun replyTo => (replyTo.name.toList, trim replyTo.address.toList) := by
  rw [replyToAddresses, List.filter_eq_self]
  intro mailbox mem
  obtain ⟨replyTo, inReplyTos, rfl⟩ := List.mem_map.mp mem
  have notEmpty := addressed replyTo inReplyTos
  rw [← sanitized_trim] at notEmpty
  simp only [ne_eq, decide_eq_true_eq]
  exact fun nothing => notEmpty (by rw [nothing]; rfl)

section Lists

variable {mail : Mail} {details : MailDetails} {attachments : List (TutanotaFile × List UInt8)}

/-- Every recipient of a header has an address when it is written. -/
def Addressed (details : MailDetails) : Prop :=
  ∀ recipient ∈ details.recipients.toRecipients ++ details.recipients.ccRecipients ++
    details.replyTos, sanitized recipient.address.toList ≠ []

theorem addressed_mailboxes {recipients : List MailAddress}
    (addressed : ∀ recipient ∈ recipients, sanitized recipient.address.toList ≠ []) :
    ∀ mailbox ∈ recipients.map mailboxOf, sanitized mailbox.2 ≠ [] := by
  intro mailbox mem
  obtain ⟨recipient, inRecipients, rfl⟩ := List.mem_map.mp mem
  exact addressed recipient inRecipients

/-- The headers before the recipients and behind them. -/
theorem messageFields_eq : messageFields mail (some details) attachments =
      [("Date", formatRfc2822Date mail.receivedDate), ("From", formatAddress mail.sender),
        ("Subject", encodeHeaderValue mail.subject.toList)] ++
      (addressField "To" (details.recipients.toRecipients.map formatAddress) ++
        (addressField "Cc" (details.recipients.ccRecipients.map formatAddress) ++
          (addressField "Reply-To" ((replyToAddresses details).map fun replyTo =>
            formatNameAndAddress replyTo.1 replyTo.2) ++
          ((mail.id.map fun id => ("Message-ID", '<' :: (id.listId.toList ++ '.' ::
              (id.elementId.toList ++ "@tutabridge.local>".toList)))).toList ++
            [("MIME-Version", "1.0".toList), ("Content-Type", messageType mail attachments)])))) := by
  simp only [messageFields, List.append_assoc]

/-- What stands before the recipients. -/
def leadingFields (mail : Mail) : List (String × Text) :=
  [("Date", formatRfc2822Date mail.receivedDate), ("From", formatAddress mail.sender),
    ("Subject", encodeHeaderValue mail.subject.toList)]

/-- What stands behind the recipients. -/
def trailingFields (mail : Mail) (attachments : List (TutanotaFile × List UInt8)) : List (String × Text) :=
  (mail.id.map fun id => ("Message-ID", '<' :: (id.listId.toList ++ '.' :: (id.elementId.toList ++
      "@tutabridge.local>".toList)))).toList ++
    [("MIME-Version", "1.0".toList), ("Content-Type", messageType mail attachments)]

theorem lacks_recipients {name : String} (isName : name ∈ ["to", "cc", "bcc", "reply-to"]) :
    Lacks (leadingFields mail) name ∧ Lacks (trailingFields mail attachments) name := by
  have others : ∀ name ∈ ["to", "cc", "bcc", "reply-to"],
      ∀ header ∈ ["Date", "From", "Subject", "Message-ID", "MIME-Version", "Content-Type"],
        header.toList.map Char.toLower ≠ name.toList := by decide
  have different := others name isName
  constructor
  · intro field mem
    refine different field.1 ?_
    simp only [leadingFields, List.mem_cons, List.not_mem_nil, or_false] at mem
    rcases mem with rfl | rfl | rfl <;> simp
  · intro field mem
    refine different field.1 ?_
    rcases List.mem_append.mp mem with messageId | mem
    · obtain ⟨id, -, rfl⟩ := Option.map_eq_some_iff.mp (Option.mem_toList.mp messageId)
      simp
    · simp only [List.mem_cons, List.not_mem_nil, or_false] at mem
      rcases mem with rfl | rfl <;> simp

/-- The lists of a message are read back, and no list of hidden recipients. -/
theorem addressHeadersOf_messageFields (casing : Casing) (addressed : Addressed details) :
    let read := addressHeadersOf casing (readFields (messageFields mail (some details) attachments))
    List.Forall₂ ReadBack (details.recipients.toRecipients.map mailboxOf) read.recipients ∧
      List.Forall₂ ReadBack (details.recipients.ccRecipients.map mailboxOf) read.cc ∧
      List.Forall₂ ReadBack (replyToAddresses details) read.replyTo ∧ read.bcc = [] := by
  have toAddressed : ∀ mailbox ∈ details.recipients.toRecipients.map mailboxOf, sanitized mailbox.2 ≠ [] :=
    addressed_mailboxes fun recipient mem => addressed recipient (by simp [mem])
  have ccAddressed : ∀ mailbox ∈ details.recipients.ccRecipients.map mailboxOf, sanitized mailbox.2 ≠ [] :=
    addressed_mailboxes fun recipient mem => addressed recipient (by simp [mem])
  have replyToAddressed : ∀ mailbox ∈ replyToAddresses details, sanitized mailbox.2 ≠ [] := by
    have kept : ∀ replyTo ∈ details.replyTos, sanitized replyTo.address.toList ≠ [] :=
      fun replyTo mem => addressed replyTo (by simp [mem])
    rw [replyToAddresses_eq kept]
    intro mailbox mem
    obtain ⟨replyTo, inReplyTos, rfl⟩ := List.mem_map.mp mem
    rw [sanitized_trim]
    exact kept replyTo inReplyTos
  have written : ∀ recipients : List MailAddress, recipients.map formatAddress =
      (recipients.map mailboxOf).map fun recipient =>
        formatNameAndAddress recipient.1 recipient.2 := by
    intro recipients
    rw [List.map_map]
    rfl
  have lacksTo := @lacks_recipients mail attachments "to" (by decide)
  have lacksCc := @lacks_recipients mail attachments "cc" (by decide)
  have lacksBcc := @lacks_recipients mail attachments "bcc" (by decide)
  have lacksReplyTo := @lacks_recipients mail attachments "reply-to" (by decide)
  have field := @Lacks.addressField
  intro read
  refine ⟨?_, ?_, ?_, ?_⟩
  · have found := @addressList_readBack casing (leadingFields mail)
      (addressField "Cc" (details.recipients.ccRecipients.map formatAddress) ++
        (addressField "Reply-To" ((replyToAddresses details).map fun replyTo =>
            formatNameAndAddress replyTo.1 replyTo.2) ++ trailingFields mail attachments))
      "To" "to" (by decide) lacksTo.1
      ((field (by decide) _).append ((field (by decide) _).append lacksTo.2)) _ toAddressed
    rw [← written, leadingFields, trailingFields, ← messageFields_eq] at found
    exact found
  · have found := @addressList_readBack casing (leadingFields mail ++
        addressField "To" (details.recipients.toRecipients.map formatAddress))
      (addressField "Reply-To" ((replyToAddresses details).map fun replyTo =>
            formatNameAndAddress replyTo.1 replyTo.2) ++ trailingFields mail attachments)
      "Cc" "cc" (by decide) (lacksCc.1.append (field (by decide) _))
      ((field (by decide) _).append lacksCc.2) _ ccAddressed
    rw [← written, leadingFields, trailingFields, List.append_assoc, ← messageFields_eq] at found
    exact found
  · have found := @addressList_readBack casing (leadingFields mail ++
        (addressField "To" (details.recipients.toRecipients.map formatAddress) ++
          addressField "Cc" (details.recipients.ccRecipients.map formatAddress)))
      (trailingFields mail attachments) "Reply-To" "reply-to" (by decide)
      (lacksReplyTo.1.append ((field (by decide) _).append (field (by decide) _))) lacksReplyTo.2 _
      replyToAddressed
    rw [leadingFields, trailingFields, List.append_assoc, List.append_assoc, ← messageFields_eq] at found
    exact found
  · have absent : getHeader (readFields (messageFields mail (some details) attachments)) "bcc" =
        none := by
      rw [messageFields_eq]
      exact getHeader_none (lacksBcc.1.append ((field (by decide) _).append
        ((field (by decide) _).append ((field (by decide) _).append lacksBcc.2))))
    show addressList casing _ "bcc" = []
    rw [addressList, absent]
    rfl

end Lists

/-- Reply-To as the details have it and as it is written differ in white space around the
addresses. -/
theorem readBack_replyTos {details : MailDetails} {read : List (Text × Text)}
    (addressed : ∀ replyTo ∈ details.replyTos, sanitized replyTo.address.toList ≠ [])
    (readBack : List.Forall₂ ReadBack (replyToAddresses details) read) :
    List.Forall₂ ReadBack (details.replyTos.map mailboxOf) read := by
  rw [replyToAddresses_eq addressed] at readBack
  rw [List.forall₂_map_left_iff] at readBack ⊢
  refine readBack.imp fun replyTo mailbox same => ?_
  simpa only [ReadBack, sanitized_trim, mailboxOf] using same

/-- Every recipient of a message is read back, once and in its place, also where the details
are gone and the message is read from disk. -/
theorem addressHeaders_readBack (casing : Casing) {mail : Mail} (ids : HasTutaIds mail)
    {details : MailDetails} (addressed : Addressed details)
    (attachments : List (TutanotaFile × List UInt8)) :
    let raw := mailToRfc2822 mail (some details) attachments
    let read := parseAddressHeaders casing raw
    let warm := addressHeaders casing mail (some ⟨some details, String.ofList raw⟩)
    let cold := addressHeaders casing mail (some ⟨none, String.ofList raw⟩)
    (List.Forall₂ ReadBack (details.recipients.toRecipients.map mailboxOf) read.recipients ∧
      List.Forall₂ ReadBack (details.recipients.ccRecipients.map mailboxOf) read.cc ∧
      List.Forall₂ ReadBack (details.replyTos.map mailboxOf) read.replyTo) ∧
    (List.Forall₂ ReadBack warm.recipients cold.recipients ∧
      List.Forall₂ ReadBack warm.cc cold.cc ∧ List.Forall₂ ReadBack warm.replyTo cold.replyTo ∧
      cold.bcc = []) := by
  intro raw read warm cold
  have parsed := parseHeaders_mailToRfc2822 casing ids (some details) attachments
  have isRead : read = addressHeadersOf casing (readFields (messageFields mail (some details) attachments)) :=
    congrArg (addressHeadersOf casing) parsed
  have isCold : cold = read := by
    show parseAddressHeaders casing (String.ofList raw).toList = read
    rw [String.toList_ofList]
  have lists := @addressHeadersOf_messageFields mail details attachments casing addressed
  rw [← isRead] at lists
  obtain ⟨recipients, cc, replyTo, bcc⟩ := lists
  rw [isCold]
  refine ⟨⟨recipients, cc, ?_⟩, recipients, cc, replyTo, bcc⟩
  exact readBack_replyTos (fun reply mem => addressed reply (by simp [mem])) replyTo

/-- A mail to a recipient whose display name ends in a blank. -/
def blankNameMail : Mail where
  id := some ⟨"list", "mail"⟩
  subject := "Hello"
  sender := ⟨"Eve", "eve@example.org"⟩
  receivedDate := 1709210096000
  unread := true
  attachments := []

def blankNameDetails : MailDetails where
  body := ⟨none, none⟩
  recipients := { toRecipients := [⟨"Doe, \"Jane\" ", "jane@example.org"⟩, ⟨"", "joe@example.org"⟩] }
  replyTos := [⟨"Eve", " eve@example.com "⟩]

theorem addressHeaders_readBack_blank : HasTutaIds blankNameMail ∧ Addressed blankNameDetails ∧
      List.Forall₂ ReadBack (blankNameDetails.recipients.toRecipients.map mailboxOf) (parseAddressHeaders .ascii
          (mailToRfc2822 blankNameMail (some blankNameDetails) [])).recipients := by
  have ids : HasTutaIds blankNameMail := by
    rintro id ⟨⟩
    decide
  have addressed : Addressed blankNameDetails := by
    unfold Addressed
    decide
  exact ⟨ids, addressed, (addressHeaders_readBack .ascii ids addressed []).1.1⟩

/-- The blank is lost with the details, so the client is answered differently. -/
theorem address_headers_differ : HasTutaIds blankNameMail ∧ Addressed blankNameDetails ∧
      let raw := mailToRfc2822 blankNameMail (some blankNameDetails) []
      (addressHeaders .ascii blankNameMail (some ⟨some blankNameDetails, String.ofList raw⟩)).recipients ≠
        (addressHeaders .ascii blankNameMail (some ⟨none, String.ofList raw⟩)).recipients := by
  have ids : HasTutaIds blankNameMail := by
    rintro id ⟨⟩
    decide
  have addressed : Addressed blankNameDetails := by
    unfold Addressed
    decide
  have parsed := parseHeaders_mailToRfc2822 .ascii ids (some blankNameDetails) []
  refine ⟨ids, addressed, ?_⟩
  show blankNameDetails.recipients.toRecipients.map mailboxOf ≠
    (addressHeadersOf .ascii (parseHeaders .ascii (headerSection (String.ofList _).toList))).recipients
  rw [String.toList_ofList, parsed]
  decide +kernel

end TutaBridge.Mail
