import TutaBridge.Imap.Lines
import TutaBridge.Std.Reader
import TutaBridge.Std.Utf8

/-!
# Strings in a response

How a client reads the strings of a response, by the formal syntax of RFC 3501: in quotes, as
a literal of so many octets, or `NIL`. A client counts octets, so it reads octets.
-/

namespace TutaBridge.Imap

open TutaBridge.Std

abbrev Octets := List UInt8

/-- The octets of an ASCII text. -/
def asciiOctets (text : Text) : Octets := text.map fun char => UInt8.ofNat char.toNat

/-- `TEXT-CHAR`. -/
def isTextChar (octet : UInt8) : Bool :=
  0 < octet.toNat && octet.toNat < 0x80 && octet ≠ 13 && octet ≠ 10

/-- `quoted` behind its opening quote; `escaped` after a backslash. -/
def readQuotedFrom : (escaped : Bool) → Octets → Option (Octets × Octets)
  | _, [] => none
  | true, octet :: rest =>
    if octet = 34 ∨ octet = 92 then
      (readQuotedFrom false rest).map fun read => (octet :: read.1, read.2)
    else none
  | false, octet :: rest =>
    if octet = 92 then readQuotedFrom true rest
    else if octet = 34 then some ([], rest)
    else if isTextChar octet then
      (readQuotedFrom false rest).map fun read => (octet :: read.1, read.2)
    else none

/-- `number`, the value of digits. -/
def numberOf (digits : Octets) : Nat :=
  Nat.ofDigitChars 10 (digits.map fun digit => Char.ofNat digit.toNat) 0

def isDigitOctet (octet : UInt8) : Bool := 48 ≤ octet.toNat && octet.toNat ≤ 57

def readNumber : Reader UInt8 Nat := do
  let digits ← Reader.takeWhile isDigitOctet
  Reader.require (digits ≠ [])
  return numberOf digits

/-- `literal` behind its opening brace. -/
def readLiteral : Reader UInt8 Octets := do
  let count ← readNumber
  Reader.expect (asciiOctets "\x7d\r\n".toList)
  let content ← Reader.take count
  Reader.require (0 ∉ content)
  return content

/-- `nil`, in upper or lower case. -/
def readNil : Reader UInt8 Unit := fun input =>
  if (input.take 3).map (fun octet => (Char.ofNat octet.toNat).toLower) = "nil".toList then
    some ((), input.drop 3)
  else none

/-- `nstring`. -/
def readNString : Reader UInt8 (Option Octets) := fun input =>
  match input with
  | [] => none
  | octet :: rest =>
    if octet = 34 then (readQuotedFrom false rest).map fun read => (some read.1, read.2)
    else if octet = 123 then (readLiteral rest).map fun read => (some read.1, read.2)
    else (readNil input).map fun read => (none, read.2)

/-! ## What is read -/

/-- A character that a quoted string may hold. -/
def IsQuotable (char : Char) : Prop :=
  0 < char.toNat ∧ char.toNat < 0x80 ∧ char ≠ '\r' ∧ char ≠ '\n'

theorem octet_facts {char : Char} (quotable : IsQuotable char) :
    isTextChar (UInt8.ofNat char.toNat) = true ∧ (UInt8.ofNat char.toNat = 34 ↔ char = '"') ∧
      (UInt8.ofNat char.toNat = 92 ↔ char = '\\') := by
  have table := @Text.of_ascii (fun char => 0 < char.toNat ∧ char ≠ '\r' ∧ char ≠ '\n' →
    isTextChar (UInt8.ofNat char.toNat) = true ∧ (UInt8.ofNat char.toNat = 34 ↔ char = '"') ∧
      (UInt8.ofNat char.toNat = 92 ↔ char = '\\')) (by decide) char quotable.2.1
  exact table ⟨quotable.1, quotable.2.2⟩

/-- The content of a quoted string is read up to the quote that ends it. -/
theorem readQuotedFrom_escaped {text : Text} (quotable : ∀ char ∈ text, IsQuotable char) (rest : Octets) :
    readQuotedFrom false (asciiOctets (text.flatMap escapeChar) ++ 34 :: rest) = some (asciiOctets text, rest) := by
  induction text with
  | nil => rfl
  | cons char later ih =>
    obtain ⟨first, quotable⟩ := List.forall_mem_cons.mp quotable
    obtain ⟨isText, isQuote, isBackslash⟩ := octet_facts first
    have split : asciiOctets ((char :: later).flatMap escapeChar) =
        asciiOctets (escapeChar char) ++ asciiOctets (later.flatMap escapeChar) := by
      rw [List.flatMap_cons, asciiOctets, List.map_append]
      rfl
    rw [split, escapeChar]
    split
    next special =>
      have isSpecial : UInt8.ofNat char.toNat = 34 ∨ UInt8.ofNat char.toNat = 92 :=
        special.imp isQuote.mpr isBackslash.mpr
      have escape : asciiOctets ['\\', char] = [92, UInt8.ofNat char.toNat] := rfl
      rw [escape, List.cons_append, List.cons_append, readQuotedFrom, if_pos rfl,
        List.singleton_append, List.cons_append, readQuotedFrom, if_pos isSpecial,
        ih quotable]
      rfl
    next plain =>
      obtain ⟨notQuote, notBackslash⟩ := not_or.mp plain
      have single : asciiOctets [char] = [UInt8.ofNat char.toNat] := rfl
      rw [single, List.append_assoc, List.singleton_append, readQuotedFrom,
        if_neg (mt isBackslash.mp notBackslash), if_neg (mt isQuote.mp notQuote), if_pos isText,
        ih quotable]
      rfl

theorem reads_quoted {text : Text} (quotable : ∀ char ∈ text, IsQuotable char) :
    Reader.Reads readNString (asciiOctets (quoted text)) (some (asciiOctets text)) := by
  intro rest
  have written : asciiOctets (quoted text) ++ rest =
      34 :: (asciiOctets (text.flatMap escapeChar) ++ 34 :: rest) := by
    simp [asciiOctets, quoted]
  rw [written, readNString, if_pos rfl, readQuotedFrom_escaped quotable]
  rfl

theorem reads_nil : Reader.Reads readNString (asciiOctets "NIL".toList) none := by
  intro rest
  have written : asciiOctets "NIL".toList ++ rest = 78 :: 73 :: 76 :: rest := rfl
  rw [written, readNString, if_neg (by decide), if_neg (by decide)]
  rfl

theorem digit_octet {char : Char} (digit : char.isDigit = true) :
    char.toNat < 0x80 ∧ isDigitOctet (UInt8.ofNat char.toNat) = true ∧
      Char.ofNat (UInt8.ofNat char.toNat).toNat = char := by
  have ascii : char.toNat < 0x80 := by
    have bounds := Text.toNat_of_isDigit digit
    omega
  have table := @Text.of_ascii (fun char => char.isDigit = true →
    isDigitOctet (UInt8.ofNat char.toNat) = true ∧ Char.ofNat (UInt8.ofNat char.toNat).toNat = char)
    (by decide) char ascii
  exact ⟨ascii, table digit⟩

theorem numberOf_decimal (value : Nat) : numberOf (asciiOctets (Text.decimal value)) = value := by
  have back : (asciiOctets (Text.decimal value)).map (fun digit => Char.ofNat digit.toNat) =
      Text.decimal value := by
    rw [asciiOctets, List.map_map]
    refine (List.map_congr_left fun char mem => ?_).trans (List.map_id _)
    exact (digit_octet (Text.isDigit_of_mem_decimal mem)).2.2
  rw [numberOf, back, Text.decimal, Nat.ofDigitChars_ten_toDigits]

/-- What may follow a number. -/
def NoDigit (rest : Octets) : Prop := ∀ octet ∈ rest.head?, isDigitOctet octet = false

/-- A number is read up to what is no digit. -/
theorem answers_number (value : Nat) :
    Reader.Answers readNumber (asciiOctets (Text.decimal value)) NoDigit (some value) := by
  have digits : ∀ octet ∈ asciiOctets (Text.decimal value), isDigitOctet octet = true := by
    intro octet mem
    obtain ⟨char, inNumber, rfl⟩ := List.mem_map.mp mem
    exact (digit_octet (Text.isDigit_of_mem_decimal inNumber)).2.1
  have notEmpty : asciiOctets (Text.decimal value) ≠ [] := by
    simp [asciiOctets, Text.decimal_ne_nil]
  have checked : @Reader.Reads UInt8 Nat (do
      Reader.require (asciiOctets (Text.decimal value) ≠ [])
      return numberOf (asciiOctets (Text.decimal value))) [] value := by
    rw [numberOf_decimal]
    exact (Reader.reads_require notEmpty).guarded (Reader.Reads.pure value)
  exact (Reader.answers_takeWhile digits).guarded (fun _ => some value) fun symbols isRead =>
    (Option.mem_some_iff.mp isRead).symm ▸ checked.answers NoDigit

/-- A literal is read by its count of octets, whatever they are. -/
theorem reads_literal {content : Octets} (noNul : 0 ∉ content) : Reader.Reads readNString
      (asciiOctets ('{' :: Text.decimal content.length ++ "\x7d\r\n".toList) ++ content) (some content) := by
  have counted : Reader.Reads readLiteral
      (asciiOctets (Text.decimal content.length) ++ 125 :: ([13, 10] ++ content)) content := by
    have behind : Reader.Reads (do
        Reader.expect (asciiOctets "\x7d\r\n".toList)
        let content ← Reader.take content.length
        Reader.require (0 ∉ content)
        return content) (125 :: ([13, 10] ++ content)) content :=
      (Reader.reads_expect (asciiOctets "\x7d\r\n".toList)).bind ((Reader.reads_take content).guarded
          ((Reader.reads_require noNul).guarded (Reader.Reads.pure content)))
    have stops : ∀ rest : Octets, NoDigit (125 :: ([13, 10] ++ content) ++ rest) := by
      rintro rest octet ⟨⟩
      decide
    exact ((answers_number content.length).bind (fun _ => some content)
      (fun rest _ => stops rest) fun value isRead =>
        (Option.mem_some_iff.mp isRead) ▸ behind.answers _).reads
  intro rest
  have written : asciiOctets ('{' :: Text.decimal content.length ++ "\x7d\r\n".toList) ++ content ++ rest =
      123 :: (asciiOctets (Text.decimal content.length) ++ 125 :: ([13, 10] ++ content) ++ rest) := by
    simp [asciiOctets]
  rw [written, readNString, if_neg (by decide), if_pos rfl, counted]
  rfl

end TutaBridge.Imap
