import TutaBridge.Imap.Syntax
import TutaBridge.Mail.AddressLists

/-!
# The envelope of a message

`build_envelope` writes ten fields in parentheses: strings in quotes or as literals, lists of
addresses, and `NIL`. A client reads them back by the formal syntax of RFC 3501, where the
section on parenthesized lists puts a space between two addresses and the syntax of the
envelope puts none; it takes either.
-/

namespace TutaBridge.Imap

open TutaBridge.Std TutaBridge.Std.Text Tuta TutaBridge.Mail

/-! ## What is written -/

/-- `imap_string`. -/
def imapString (text : Text) : Text :=
  if text = [] then "\"\"".toList
  else if (Utf8.encode text).any fun octet => octet = 13 || octet = 10 || 0x80 ≤ octet.toNat then
    '{' :: decimal (Utf8.encode text).length ++ "\x7d\r\n".toList ++ text
  else '"' :: (replace ['"'] ['\\', '"'] (replace ['\\'] ['\\', '\\'] text) ++ ['"'])

/-- `format_envelope_mailbox`. -/
def formatEnvelopeMailbox (name address : Text) : Text :=
  let parts := (splitOnce '@' address).getD (address, [])
  let name := if name = [] then "NIL".toList else imapString name
  '(' :: name ++ " NIL ".toList ++ imapString parts.1 ++ ' ' :: imapString parts.2 ++ [')']

/-- `envelope_address_list`. -/
def envelopeAddressList (mailboxes : List (Text × Text)) : Text :=
  if mailboxes = [] then "NIL".toList
  else
    '(' :: [' '].intercalate (mailboxes.map fun mailbox => formatEnvelopeMailbox mailbox.1 mailbox.2) ++ [')']

/-- The message id of `build_envelope`. -/
def envelopeMessageId (mail : Mail) : Text :=
  ((mail.id.map fun id => '<' :: (id.listId.toList ++ '.' :: (id.elementId.toList ++
    "@tutabridge.local>".toList))).getD [])

/-- `build_envelope`. -/
def buildEnvelope (mail : Mail) (addresses : AddressHeaders) : Text :=
  let sender := envelopeAddressList [mailboxOf mail.sender]
  let replyTo := if addresses.replyTo = [] then sender else envelopeAddressList addresses.replyTo
  '(' :: ('"' :: (formatRfc2822Date mail.receivedDate ++ ['"'])) ++ ' ' :: imapString mail.subject.toList ++
    ' ' :: sender ++ ' ' :: sender ++ ' ' :: replyTo ++
    ' ' :: envelopeAddressList addresses.recipients ++ ' ' :: envelopeAddressList addresses.cc ++
    " NIL NIL ".toList ++ imapString (envelopeMessageId mail) ++ [')']

/-! ## What a client reads -/

/-- An `address`: a name, a source route, a mailbox and a host. -/
structure EnvelopeAddress where
  name : Option Octets
  adl : Option Octets
  mailbox : Option Octets
  host : Option Octets
deriving DecidableEq, Repr

/-- An `envelope`. A list that is `NIL` has no addresses. -/
structure Envelope where
  date : Option Octets
  subject : Option Octets
  sentFrom : List EnvelopeAddress
  sender : List EnvelopeAddress
  replyTo : List EnvelopeAddress
  recipients : List EnvelopeAddress
  cc : List EnvelopeAddress
  bcc : List EnvelopeAddress
  inReplyTo : Option Octets
  messageId : Option Octets
deriving DecidableEq, Repr

/-- A field behind the space before it. -/
def spaced {α : Type} (field : Reader UInt8 α) : Reader UInt8 α := do
  Reader.expect (asciiOctets [' '])
  field

def readAddress : Reader UInt8 EnvelopeAddress := do
  Reader.expect (asciiOctets ['('])
  let name ← readNString
  let adl ← spaced readNString
  let mailbox ← spaced readNString
  let host ← spaced readNString
  Reader.expect (asciiOctets [')'])
  return ⟨name, adl, mailbox, host⟩

/-- A list of addresses, one at least, or `NIL`. -/
def readAddresses : Reader UInt8 (List EnvelopeAddress) := fun input =>
  match input with
  | [] => none
  | octet :: rest =>
    if octet = 40 then Reader.list readAddress 32 41 rest.length rest
    else (readNil input).map fun read => ([], read.2)

def readEnvelope : Reader UInt8 Envelope := do
  Reader.expect (asciiOctets ['('])
  let date ← readNString
  let subject ← spaced readNString
  let sentFrom ← spaced readAddresses
  let sender ← spaced readAddresses
  let replyTo ← spaced readAddresses
  let recipients ← spaced readAddresses
  let cc ← spaced readAddresses
  let bcc ← spaced readAddresses
  let inReplyTo ← spaced readNString
  let messageId ← spaced readNString
  Reader.expect (asciiOctets [')'])
  return ⟨date, subject, sentFrom, sender, replyTo, recipients, cc, bcc, inReplyTo, messageId⟩

/-! ## What is meant -/

/-- A mailbox as the client is to see it, its address split at the first `@`. -/
def envelopeAddress (mailbox : Text × Text) : EnvelopeAddress where
  name := if mailbox.1 = [] then none else some (Utf8.encode mailbox.1)
  adl := none
  mailbox := some (Utf8.encode (mailbox.2.takeWhile (· ≠ '@')))
  host := some (Utf8.encode (mailbox.2.dropWhile (· ≠ '@')).tail)

/-- The envelope of a mail with its addresses. -/
def envelopeOf (mail : Mail) (addresses : AddressHeaders) : Envelope where
  date := some (Utf8.encode (formatRfc2822Date mail.receivedDate))
  subject := some (Utf8.encode mail.subject.toList)
  sentFrom := [envelopeAddress (mailboxOf mail.sender)]
  sender := [envelopeAddress (mailboxOf mail.sender)]
  replyTo :=
    if addresses.replyTo = [] then [envelopeAddress (mailboxOf mail.sender)]
    else addresses.replyTo.map envelopeAddress
  recipients := addresses.recipients.map envelopeAddress
  cc := addresses.cc.map envelopeAddress
  bcc := []
  inReplyTo := none
  messageId := some (Utf8.encode (envelopeMessageId mail))

/-- The strings that an envelope is written from. -/
def envelopeStrings (mail : Mail) (addresses : AddressHeaders) : List Text :=
  mail.subject.toList :: (mail.id.toList.flatMap fun id => [id.listId.toList, id.elementId.toList]) ++
    (mailboxOf mail.sender :: addresses.replyTo ++ addresses.recipients ++ addresses.cc).flatMap
      fun mailbox => [mailbox.1, mailbox.2]

/-! ## Strings -/

theorem replace_quotes (text : Text) :
    replace ['"'] ['\\', '"'] (replace ['\\'] ['\\', '\\'] text) = text.flatMap escapeChar := by
  rw [replace_singleton, replace_singleton, List.flatMap_assoc]
  refine List.flatMap_congr fun char _ => ?_
  rw [escapeChar]
  by_cases isBackslash : char = '\\'
  · subst isBackslash
    decide
  · by_cases isQuote : char = '"'
    · subst isQuote
      decide
    · simp [isBackslash, isQuote]

theorem encode_octets {text : Text} (ascii : ∀ char ∈ text, char.toNat < 0x80) :
    Utf8.encode text = asciiOctets text := Utf8.encode_ascii ascii

theorem ascii_quoted {text : Text} (ascii : ∀ char ∈ text, char.toNat < 0x80) :
    ∀ char ∈ quoted text, char.toNat < 0x80 := by
  have escaped : ∀ char ∈ text.flatMap escapeChar, char.toNat < 0x80 := by
    intro char mem
    obtain ⟨original, inText, isPart⟩ := List.mem_flatMap.mp mem
    rw [escapeChar] at isPart
    split at isPart
    · rcases List.mem_cons.mp isPart with rfl | isOriginal
      · decide
      · rw [List.mem_singleton.mp isOriginal]
        exact ascii original inText
    · rw [List.mem_singleton.mp isPart]
      exact ascii original inText
  exact List.forall_mem_cons.mpr ⟨by decide, List.forall_mem_append.mpr ⟨escaped, by decide⟩⟩

/-- The octets of a text that needs no literal. -/
theorem quotable_of_octets {text : Text} (noNul : '\x00' ∉ text)
    (plain : ((Utf8.encode text).any fun octet => octet = 13 || octet = 10 || 0x80 ≤ octet.toNat) =
      false) : ∀ char ∈ text, IsQuotable char := by
  intro char mem
  have octetsPlain : ∀ octet ∈ String.utf8EncodeChar char,
      ¬ (octet = 13 ∨ octet = 10 ∨ 0x80 ≤ octet.toNat) := by
    intro octet inChar
    have inText : octet ∈ Utf8.encode text := List.mem_flatMap.mpr ⟨char, mem, inChar⟩
    simpa [or_assoc] using List.any_eq_false.mp plain octet inText
  obtain ⟨octet, inChar⟩ := List.exists_mem_of_ne_nil _ (String.utf8EncodeChar_ne_nil (c := char))
  rcases Utf8.toNat_of_mem_encodeChar inChar with ⟨same, ascii⟩ | beyond
  · have isOctet : octet = UInt8.ofNat char.toNat := by
      rw [← same, UInt8.ofNat_toNat]
    have notBreak := octetsPlain octet inChar
    refine ⟨?_, ascii, ?_, ?_⟩
    · rw [Nat.pos_iff_ne_zero]
      intro isNul
      have nul : char = '\x00' := Char.toNat_inj.mp isNul
      exact noNul (nul ▸ mem)
    · rintro rfl
      exact notBreak (.inl isOctet)
    · rintro rfl
      exact notBreak (.inr (.inl isOctet))
  · exact absurd (.inr (.inr beyond)) (octetsPlain octet inChar)

/-- Every string is read back, in either of its forms. -/
theorem reads_imapString {text : Text} (noNul : '\x00' ∉ text) :
    Reader.Reads readNString (Utf8.encode (imapString text)) (some (Utf8.encode text)) := by
  unfold imapString
  split_ifs with isEmpty needsLiteral
  · subst isEmpty
    exact @reads_quoted [] (List.forall_mem_nil _)
  · have noNulOctet : 0 ∉ Utf8.encode text := fun mem =>
      noNul (@Utf8.mem_of_mem_encode text '\x00' (by decide) mem)
    have ascii : ∀ char ∈ '{' :: decimal (Utf8.encode text).length ++ "\x7d\r\n".toList,
        char.toNat < 0x80 := by
      refine List.forall_mem_append.mpr ⟨List.forall_mem_cons.mpr ⟨by decide, ?_⟩, by decide⟩
      exact fun char mem => (digit_octet (isDigit_of_mem_decimal mem)).1
    rw [Utf8.encode_append, encode_octets ascii]
    exact reads_literal noNulOctet
  · have quotable := quotable_of_octets noNul (by simpa using needsLiteral)
    have ascii : ∀ char ∈ text, char.toNat < 0x80 := fun char mem => (quotable char mem).2.1
    rw [replace_quotes, ← quoted, encode_octets (ascii_quoted ascii), encode_octets ascii]
    exact reads_quoted quotable

/-! ## Lists of addresses -/

theorem reads_spaced {α : Type} {field : Reader UInt8 α} {written : Octets} {value : α}
    (reads : Reader.Reads field written value) : Reader.Reads (spaced field) (asciiOctets [' '] ++ written) value :=
  (Reader.reads_expect (asciiOctets [' '])).bind reads

/-- What stands before and after the first `@`. -/
theorem splitOnce_address (address : Text) : (splitOnce '@' address).getD (address, []) =
      (address.takeWhile (· ≠ '@'), (address.dropWhile (· ≠ '@')).tail) := by
  induction address with
  | nil => rfl
  | cons head rest ih =>
    by_cases isAt : head = '@'
    · subst isAt
      simp [splitOnce]
    · rw [splitOnce, if_neg isAt, List.takeWhile_cons_of_pos (by simpa using isAt),
        List.dropWhile_cons_of_pos (by simpa using isAt)]
      cases found : splitOnce '@' rest with
      | none =>
        rw [found] at ih
        obtain ⟨before, after⟩ := Prod.mk.inj ih
        simp only [Option.map_none, Option.getD_none] at before after ⊢
        rw [← before, ← after]
      | some parts =>
        rw [found] at ih
        obtain ⟨before, after⟩ := Prod.mk.inj ih
        simp only [Option.map_some, Option.getD_some] at before after ⊢
        rw [← before, ← after]

theorem reads_mailbox {mailbox : Text × Text} (noNul : '\x00' ∉ mailbox.1 ∧ '\x00' ∉ mailbox.2) :
    Reader.Reads readAddress (Utf8.encode (formatEnvelopeMailbox mailbox.1 mailbox.2)) (envelopeAddress mailbox) := by
  obtain ⟨name, address⟩ := mailbox
  have nameReads : Reader.Reads readNString
      (Utf8.encode (if name = [] then "NIL".toList else imapString name))
      (if name = [] then none else some (Utf8.encode name)) := by
    split
    · exact reads_nil
    · exact reads_imapString noNul.1
  have user : '\x00' ∉ address.takeWhile (· ≠ '@') :=
    fun mem => noNul.2 ((List.takeWhile_sublist _).mem mem)
  have domain : '\x00' ∉ (address.dropWhile (· ≠ '@')).tail := fun mem =>
    noNul.2 ((List.dropWhile_sublist _).mem (List.mem_of_mem_tail mem))
  have written : Utf8.encode (formatEnvelopeMailbox name address) =
      asciiOctets ['('] ++ (Utf8.encode (if name = [] then "NIL".toList else imapString name) ++
        ((asciiOctets [' '] ++ asciiOctets "NIL".toList) ++
          ((asciiOctets [' '] ++ Utf8.encode (imapString (address.takeWhile (· ≠ '@')))) ++
            ((asciiOctets [' '] ++ Utf8.encode (imapString (address.dropWhile (· ≠ '@')).tail)) ++
              asciiOctets [')'])))) := by
    have nil : Utf8.encode " NIL ".toList = asciiOctets [' '] ++ asciiOctets "NIL".toList ++ asciiOctets [' '] := rfl
    have close : Utf8.encode [')'] = asciiOctets [')'] := rfl
    rw [formatEnvelopeMailbox, splitOnce_address]
    simp only [Utf8.encode_append, @Utf8.encode_cons_ascii '(' (by decide),
      @Utf8.encode_cons_ascii ' ' (by decide), nil, close]
    simp [asciiOctets]
  rw [written]
  refine (Reader.reads_expect _).bind (nameReads.bind ((reads_spaced reads_nil).bind ?_))
  refine (reads_spaced (reads_imapString user)).bind ((reads_spaced (reads_imapString domain)).bind ?_)
  exact (Reader.reads_expect _).guarded (Reader.Reads.pure _)

theorem encode_intercalate (texts : List Text) :
    Utf8.encode ([' '].intercalate texts) = [32].intercalate (texts.map Utf8.encode) := by
  induction texts with
  | nil => rfl
  | cons first rest ih =>
    cases rest with
    | nil => simp
    | cons second rest =>
      rw [List.intercalate_cons_cons, Utf8.encode_append, Utf8.encode_append, ih]
      simp only [List.map_cons]
      rw [List.intercalate_cons_cons]
      rfl

/-- What is joined is at least as long as there are parts that are not empty. -/
theorem length_le_intercalate {parts : List Octets} (notEmpty : ∀ part ∈ parts, part ≠ []) :
    parts.length ≤ ([32].intercalate parts).length := by
  induction parts with
  | nil => exact Nat.zero_le _
  | cons first rest ih =>
    obtain ⟨firstNotEmpty, notEmpty⟩ := List.forall_mem_cons.mp notEmpty
    have firstLong := List.length_pos_iff.mpr firstNotEmpty
    have later := ih notEmpty
    cases rest with
    | nil =>
      rw [List.intercalate_singleton]
      exact firstLong
    | cons second rest =>
      rw [List.intercalate_cons_cons, List.length_append, List.length_append, List.length_cons]
      omega

theorem reads_addressList {mailboxes : List (Text × Text)}
    (noNul : ∀ mailbox ∈ mailboxes, '\x00' ∉ mailbox.1 ∧ '\x00' ∉ mailbox.2) :
    Reader.Reads readAddresses (Utf8.encode (envelopeAddressList mailboxes)) (mailboxes.map envelopeAddress) := by
  intro rest
  by_cases isEmpty : mailboxes = []
  · subst isEmpty
    have written : Utf8.encode (envelopeAddressList []) ++ rest = 78 :: 73 :: 76 :: rest := rfl
    rw [written, readAddresses, if_neg (by decide)]
    rfl
  · let write : Text × Text → Octets := fun mailbox =>
      Utf8.encode (formatEnvelopeMailbox mailbox.1 mailbox.2)
    have items : Utf8.encode ([' '].intercalate (mailboxes.map fun mailbox =>
        formatEnvelopeMailbox mailbox.1 mailbox.2)) = [32].intercalate (mailboxes.map write) := by
      rw [encode_intercalate, List.map_map]
      rfl
    have written : Utf8.encode (envelopeAddressList mailboxes) ++ rest =
        40 :: ([32].intercalate (mailboxes.map write) ++ [41] ++ rest) := by
      rw [envelopeAddressList, if_neg isEmpty, Utf8.encode_append, Utf8.encode_cons_ascii (by decide), items]
      rfl
    have notEmpty : ∀ part ∈ mailboxes.map write, part ≠ [] := by
      intro part mem
      obtain ⟨mailbox, -, rfl⟩ := List.mem_map.mp mem
      simp [write, formatEnvelopeMailbox, @Utf8.encode_cons_ascii '(' (by decide)]
    have enough : mailboxes.length ≤ ([32].intercalate (mailboxes.map write) ++ [41] ++ rest).length := by
      have long := length_le_intercalate notEmpty
      rw [List.length_map] at long
      simp only [List.length_append]
      omega
    rw [written, readAddresses, if_pos rfl]
    exact Reader.reads_list (fun mailbox mem => reads_mailbox (noNul mailbox mem)) isEmpty
      (by decide) enough rest

/-! ## The envelope -/

/-- A character of a date. -/
def isDateChar (char : Char) : Bool := char.isAlphanum || char ∈ ", :+".toList

theorem forall_mem_getD {texts : List String} {holds : Char → Prop}
    (each : ∀ text ∈ texts, ∀ char ∈ text.toList, holds char) (index : Nat) :
    ∀ char ∈ (texts.getD index "").toList, holds char := by
  rw [List.getD_eq_getElem?_getD]
  cases found : texts[index]? with
  | none => simp
  | some text => exact each text (List.mem_of_getElem? found)

theorem isDateChar_of_mem (millis : Nat) : ∀ char ∈ formatRfc2822Date millis, isDateChar char = true := by
  have weekday := @forall_mem_getD weekdays (fun char => isDateChar char = true) (by decide)
  have month := @forall_mem_getD months (fun char => isDateChar char = true) (by decide)
  have number : ∀ width value, ∀ char ∈ padded width value, isDateChar char = true := by
    intro width value char mem
    simp [isDateChar, Char.isAlphanum, mem_padded mem]
  simp only [formatRfc2822Date, List.forall_mem_append, List.forall_mem_cons]
  exact ⟨⟨⟨weekday _, by decide⟩, number _ _⟩, by decide, month _, by decide, number _ _, by decide,
    number _ _, by decide, number _ _, by decide, number _ _, by decide⟩

/-- The date is in quotes and needs no escapes. -/
theorem reads_date (millis : Nat) :
    Reader.Reads readNString (Utf8.encode ('"' :: (formatRfc2822Date millis ++ ['"'])))
      (some (Utf8.encode (formatRfc2822Date millis))) := by
  have marks : ∀ char ∈ ", :+".toList, char.toNat < 0x80 := by decide
  have plain : ∀ char ∈ formatRfc2822Date millis, IsQuotable char ∧ char ≠ '"' ∧ char ≠ '\\' := by
    intro char mem
    have isDate := isDateChar_of_mem millis char mem
    have ascii : char.toNat < 0x80 := by
      have kind := isDate
      rw [isDateChar, Bool.or_eq_true, decide_eq_true_eq] at kind
      exact kind.elim ascii_of_isAlphanum (marks char)
    have other : ∀ mark, isDateChar mark = false → char ≠ mark := by
      rintro mark noDate rfl
      rw [isDate] at noDate
      cases noDate
    have positive : 0 < char.toNat := by
      rw [Nat.pos_iff_ne_zero]
      exact fun isNul => other '\x00' (by decide) (Char.toNat_inj.mp isNul)
    exact ⟨⟨positive, ascii, other '\r' (by decide), other '\n' (by decide)⟩, other '"' (by decide),
      other '\\' (by decide)⟩
  have ascii : ∀ char ∈ formatRfc2822Date millis, char.toNat < 0x80 :=
    fun char mem => (plain char mem).1.2.1
  have isQuoted : '"' :: (formatRfc2822Date millis ++ ['"']) = quoted (formatRfc2822Date millis) :=
    (quoted_of_plain (fun mem => (plain _ mem).2.1 rfl)
      fun mem => (plain _ mem).2.2 rfl).symm
  rw [isQuoted, encode_octets (ascii_quoted ascii), encode_octets ascii]
  exact reads_quoted fun char mem => (plain char mem).1

theorem nulFree_envelopeMessageId {mail : Mail} {addresses : AddressHeaders}
    (noNul : ∀ text ∈ envelopeStrings mail addresses, '\x00' ∉ text) : '\x00' ∉ envelopeMessageId mail := by
  cases isId : mail.id with
  | none => simp [envelopeMessageId, isId]
  | some id =>
    have list := noNul id.listId.toList (by simp [envelopeStrings, isId])
    have element := noNul id.elementId.toList (by simp [envelopeStrings, isId])
    simp [envelopeMessageId, isId, list, element]

theorem encode_buildEnvelope (mail : Mail) (addresses : AddressHeaders) :
    Utf8.encode (buildEnvelope mail addresses) =
      asciiOctets ['('] ++ (Utf8.encode ('"' :: (formatRfc2822Date mail.receivedDate ++ ['"'])) ++
        ((asciiOctets [' '] ++ Utf8.encode (imapString mail.subject.toList)) ++
        ((asciiOctets [' '] ++ Utf8.encode (envelopeAddressList [mailboxOf mail.sender])) ++
        ((asciiOctets [' '] ++ Utf8.encode (envelopeAddressList [mailboxOf mail.sender])) ++
        ((asciiOctets [' '] ++ Utf8.encode (if addresses.replyTo = [] then
          envelopeAddressList [mailboxOf mail.sender] else envelopeAddressList addresses.replyTo)) ++
        ((asciiOctets [' '] ++ Utf8.encode (envelopeAddressList addresses.recipients)) ++
        ((asciiOctets [' '] ++ Utf8.encode (envelopeAddressList addresses.cc)) ++
        ((asciiOctets [' '] ++ Utf8.encode (envelopeAddressList [])) ++
        ((asciiOctets [' '] ++ asciiOctets "NIL".toList) ++
        ((asciiOctets [' '] ++ Utf8.encode (imapString (envelopeMessageId mail))) ++
          asciiOctets [')'])))))))))) := by
  have nils : Utf8.encode " NIL NIL ".toList = asciiOctets [' '] ++ Utf8.encode (envelopeAddressList []) ++
    (asciiOctets [' '] ++ asciiOctets "NIL".toList) ++ asciiOctets [' '] := rfl
  have close : Utf8.encode [')'] = asciiOctets [')'] := rfl
  rw [buildEnvelope]
  simp only [Utf8.encode_append, @Utf8.encode_cons_ascii '(' (by decide),
    @Utf8.encode_cons_ascii ' ' (by decide), nils, close]
  simp [asciiOctets]

/-- The envelope is read back whole, whatever follows it. -/
theorem readEnvelope_buildEnvelope {mail : Mail} {addresses : AddressHeaders}
    (noNul : ∀ text ∈ envelopeStrings mail addresses, '\x00' ∉ text) (rest : Octets) :
    readEnvelope (Utf8.encode (buildEnvelope mail addresses) ++ rest) = some (envelopeOf mail addresses, rest) := by
  have mailboxes : ∀ mailbox ∈ mailboxOf mail.sender :: addresses.replyTo ++ addresses.recipients ++
      addresses.cc, '\x00' ∉ mailbox.1 ∧ '\x00' ∉ mailbox.2 := by
    intro mailbox mem
    have strings : ∀ text ∈ [mailbox.1, mailbox.2], '\x00' ∉ text := fun text inMailbox =>
      noNul text (List.mem_append_right _ (List.mem_flatMap.mpr ⟨mailbox, mem, inMailbox⟩))
    exact ⟨strings _ (by simp), strings _ (by simp)⟩
  have sender := @reads_addressList [mailboxOf mail.sender]
    fun mailbox mem => mailboxes mailbox (by simp_all)
  have replyTo : Reader.Reads readAddresses
      (Utf8.encode (if addresses.replyTo = [] then envelopeAddressList [mailboxOf mail.sender]
        else envelopeAddressList addresses.replyTo)) (envelopeOf mail addresses).replyTo := by
    rw [envelopeOf]
    split
    · exact sender
    · exact reads_addressList fun mailbox mem => mailboxes mailbox (by simp [mem])
  have recipients := reads_addressList fun mailbox (mem : mailbox ∈ addresses.recipients) =>
    mailboxes mailbox (by simp [mem])
  have cc := reads_addressList fun mailbox (mem : mailbox ∈ addresses.cc) =>
    mailboxes mailbox (by simp [mem])
  have subject := reads_imapString (noNul mail.subject.toList (by simp [envelopeStrings]))
  have bcc := @reads_addressList [] (List.forall_mem_nil _)
  have messageId := reads_imapString (nulFree_envelopeMessageId noNul)
  have parts : envelopeOf mail addresses =
      ⟨some (Utf8.encode (formatRfc2822Date mail.receivedDate)), some (Utf8.encode mail.subject.toList),
        [mailboxOf mail.sender].map envelopeAddress, [mailboxOf mail.sender].map envelopeAddress,
        (envelopeOf mail addresses).replyTo, addresses.recipients.map envelopeAddress,
        addresses.cc.map envelopeAddress, [].map envelopeAddress, none,
        some (Utf8.encode (envelopeMessageId mail))⟩ := rfl
  have reads : Reader.Reads readEnvelope (Utf8.encode (buildEnvelope mail addresses))
      (envelopeOf mail addresses) := by
    rw [encode_buildEnvelope, parts, readEnvelope]
    refine (Reader.reads_expect _).bind ?_
    refine (reads_date _).bind ?_
    refine (reads_spaced subject).bind ?_
    refine (reads_spaced sender).bind ?_
    refine (reads_spaced sender).bind ?_
    refine (reads_spaced replyTo).bind ?_
    refine (reads_spaced recipients).bind ?_
    refine (reads_spaced cc).bind ?_
    refine (reads_spaced bcc).bind ?_
    refine (reads_spaced reads_nil).bind ?_
    refine (reads_spaced messageId).bind ?_
    exact (Reader.reads_expect _).guarded (Reader.Reads.pure _)
  exact reads rest

/-- A mail with a line break in its subject, to two recipients, one of them without a host. -/
def brokenSubjectMail : Mail where
  id := some ⟨"list", "mail"⟩
  subject := "La\nsélection"
  sender := ⟨"Eve \"E\"", "eve@example.org"⟩
  receivedDate := 1709210096000
  unread := true
  attachments := []

def brokenSubjectAddresses : AddressHeaders :=
  ⟨[("Jane".toList, "jane@example.org".toList), ([], "local".toList)], [], [], []⟩

theorem readEnvelope_broken_subject :
    readEnvelope (Utf8.encode (buildEnvelope brokenSubjectMail brokenSubjectAddresses) ++ [41, 13, 10]) =
      some (envelopeOf brokenSubjectMail brokenSubjectAddresses, [41, 13, 10]) := by
  have noNul : ∀ text ∈ envelopeStrings brokenSubjectMail brokenSubjectAddresses, '\x00' ∉ text := by
    decide
  exact readEnvelope_buildEnvelope noNul _

end TutaBridge.Imap
