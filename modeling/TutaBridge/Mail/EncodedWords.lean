import TutaBridge.Mail.Rfc2822
import TutaBridge.Std.Replace

/-!
# Encoded words

`decode_header_value` reads the encoded words in a header's value, `=?charset?B?text?=` in
base64 and `=?charset?Q?text?=` in a kind of quoted printable, and takes every charset for
UTF-8. What `encode_header_value` encodes it reads back.
-/

namespace TutaBridge.Mail

open TutaBridge.Std TutaBridge.Std.Text

variable {casing : Casing} {text decoded rest : Text} {char : Char}

/-! ## Quoted printable words -/

/-- The value of a hexadecimal digit. -/
def hexDigit? (byte : UInt8) : Option Nat :=
  let code := byte.toNat
  if 48 ≤ code ∧ code ≤ 57 then some (code - 48)
  else if 65 ≤ code ∧ code ≤ 70 then some (code - 55)
  else if 97 ≤ code ∧ code ≤ 102 then some (code - 87)
  else none

/-- `u8::from_str_radix` of two characters. Like any number it may begin with a plus. -/
def hexByte? (first second : UInt8) : Option UInt8 :=
  if first = 43 then (hexDigit? second).map .ofNat
  else do return .ofNat ((← hexDigit? first) * 16 + (← hexDigit? second))

/-- A hexadecimal digit, in upper or in lower case. -/
def hexChar (upper : Bool) (value : Nat) : Char :=
  Char.ofNat (if value < 10 then 48 + value else if upper then 55 + value else 87 + value)

/-- A byte as `=` and two hexadecimal digits, each in its own case. -/
def escapedByte (byte : UInt8) (upperFirst upperSecond : Bool) : Text :=
  ['=', hexChar upperFirst (byte.toNat / 16), hexChar upperSecond (byte.toNat % 16)]

/-- An underscore is a blank. -/
def qByte (byte : UInt8) : UInt8 := if byte = 95 then 32 else byte

/-- The loop of `decode_q_encoding`. -/
def decodeQBytes : List UInt8 → List UInt8
  | [] => []
  | [byte] => [qByte byte]
  | [byte, last] => [qByte byte, qByte last]
  | byte :: first :: second :: rest =>
    match if byte = 61 then hexByte? first second else none with
    | some escaped => escaped :: decodeQBytes rest
    | none => qByte byte :: decodeQBytes (first :: second :: rest)

/-- `decode_q_encoding`. -/
def decodeQEncoding (text : Text) : Text :=
  (Utf8.decode (decodeQBytes (Utf8.encode text))).getD text

/-! ## Words -/

/-- The text of an encoded word in its encoding. -/
def decodeEncoding (casing : Casing) (encoding encoded : Text) : Option Text :=
  let encoding := casing.toUppercase encoding
  if encoding = ['B'] then (Base64.decodePadded Base64.standard encoded).bind Utf8.decode
  else if encoding = ['Q'] then some (decodeQEncoding encoded)
  else none

/-- The text of an encoded word behind its `=?`, and what stands behind the word. -/
def encodedWord (casing : Casing) (text : Text) : Option (Text × Text) := do
  let (_, text) ← splitOnce '?' text
  let (encoding, text) ← splitOnce '?' text
  let (encoded, text) ← splitOnce '?' text
  if text.head? = some '=' then
    (decodeEncoding casing encoding encoded).map fun decoded => (decoded, text.tail)
  else none

theorem length_lt_of_splitOnce {separator : Char} {text first second : Text}
    (found : splitOnce separator text = some (first, second)) : second.length < text.length := by
  rw [(eq_of_splitOnce found).2, List.length_append, List.length_cons]
  omega

theorem length_lt_of_encodedWord
    (found : encodedWord casing text = some (decoded, rest)) : rest.length < text.length := by
  simp only [encodedWord, Option.bind_eq_bind, Option.bind_eq_some_iff] at found
  obtain ⟨⟨charset, behindCharset⟩, one, ⟨encoding, behindEncoding⟩, two, ⟨encoded, last⟩, three,
    found⟩ := found
  have lastShorter := length_lt_of_splitOnce three
  have encodingShorter := length_lt_of_splitOnce two
  have charsetShorter := length_lt_of_splitOnce one
  dsimp only at found lastShorter encodingShorter charsetShorter
  split at found
  · obtain ⟨text, -, same⟩ := Option.map_eq_some_iff.mp found
    cases same
    rw [List.length_tail]
    omega
  · cases found

/-- What the loop goes on with behind a word: white space between two words is none of the
text. -/
def betweenWords (text : Text) : Text :=
  if ['=', '?'].isPrefixOf (trimStart text) then trimStart text else text

theorem length_betweenWords_le (text : Text) : (betweenWords text).length ≤ text.length := by
  unfold betweenWords
  split
  · exact (List.dropWhile_suffix _).length_le
  · exact Nat.le_refl _

/-- The loop of `decode_header_value`. -/
def decodeWords (casing : Casing) : Text → Text
  | [] => []
  | char :: rest =>
    if ['=', '?'].isPrefixOf (char :: rest) then
      match _found : encodedWord casing rest.tail with
      | some (decoded, later) => decoded ++ decodeWords casing (betweenWords later)
      | none => '=' :: '?' :: decodeWords casing rest.tail
    else char :: decodeWords casing rest
termination_by text => text.length
decreasing_by
  · have shorter := length_lt_of_encodedWord _found
    have tailShorter : rest.tail.length ≤ rest.length := by simp
    have notLonger := length_betweenWords_le later
    simp only [List.length_cons]
    omega
  · simp only [List.length_cons, List.length_tail]
    omega
  · simp

/-- `decode_header_value`. -/
def decodeHeaderValue (casing : Casing) (text : Text) : Text :=
  let text := trim text
  if contains text ['=', '?'] then decodeWords casing text else text

/-! ## Escaped bytes -/

/-- A digit is one byte, which is read as its value and ends no line. -/
theorem hexChar_facts (upper : Bool) {value : Nat} (digit : value < 16) : (hexChar upper value).toNat < 0x80 ∧
      hexDigit? (UInt8.ofNat (hexChar upper value).toNat) = some value ∧
      ∀ mark ∈ [10, 13, 43], UInt8.ofNat (hexChar upper value).toNat ≠ mark := by
  have table : ∀ upper, ∀ value < 16, (hexChar upper value).toNat < 0x80 ∧
      hexDigit? (UInt8.ofNat (hexChar upper value).toNat) = some value ∧
      ∀ mark ∈ [10, 13, 43], UInt8.ofNat (hexChar upper value).toNat ≠ mark := by decide
  exact table upper value digit

/-- The bytes of an escaped byte: two digits that are read as the byte. -/
theorem encode_escapedByte (byte : UInt8) (upperFirst upperSecond : Bool) :
    ∃ first second, Utf8.encode (escapedByte byte upperFirst upperSecond) = [61, first, second] ∧
      hexByte? first second = some byte ∧ first ≠ 10 ∧ first ≠ 13 := by
  have small : byte.toNat < 256 := byte.toNat_lt
  obtain ⟨asciiFirst, readsFirst, marksFirst⟩ :=
    @hexChar_facts upperFirst (byte.toNat / 16) (by omega)
  obtain ⟨asciiSecond, readsSecond, -⟩ := @hexChar_facts upperSecond (byte.toNat % 16) (by omega)
  simp only [List.forall_mem_cons, List.not_mem_nil, false_implies, implies_true, and_true] at marksFirst
  refine ⟨UInt8.ofNat (hexChar upperFirst (byte.toNat / 16)).toNat,
    UInt8.ofNat (hexChar upperSecond (byte.toNat % 16)).toNat, ?_, ?_, marksFirst.1, marksFirst.2.1⟩
  · rw [escapedByte, Utf8.encode_cons_ascii (by decide), Utf8.encode_cons_ascii asciiFirst,
      Utf8.encode_cons_ascii asciiSecond]
    rfl
  · have value : byte.toNat / 16 * 16 + byte.toNat % 16 = byte.toNat := by omega
    rw [hexByte?, if_neg marksFirst.2.2, readsFirst, readsSecond]
    simp only [Option.bind_eq_bind, Option.bind_some, value, UInt8.ofNat_toNat]
    rfl

/-! ## What is encoded is read back -/

theorem contains_trim {text pattern : Text} (absent : contains text pattern = false) :
    contains (trim text) pattern = false := by
  rw [← Bool.not_eq_true, contains_iff] at absent ⊢
  have inner : trim text <:+: text :=
    (List.rdropWhile_prefix _ _).isInfix.trans (List.dropWhile_suffix _).isInfix
  exact fun occurs => absent (occurs.trans inner)

theorem decodeHeaderValue_plain {text : Text}
    (plain : contains text ['=', '?'] = false) : decodeHeaderValue casing text = trim text := by
  rw [decodeHeaderValue, contains_trim plain]
  rfl

/-- The base64 text of a word. -/
def base64Text (text : Text) : Text :=
  (Base64.encodePadded Base64.standard (Utf8.encode text)).toList

theorem not_mem_base64Text (other : char ∉ Base64.standard) (notPad : char ≠ '=')
    (text : Text) : char ∉ base64Text text := by
  intro mem
  rcases Base64.mem_encodePadded Base64.length_standard mem with digit | pad
  · exact other digit
  · exact notPad pad

theorem decodeEncoding_base64Text (casing : Casing) (text : Text) :
    decodeEncoding casing ['B'] (base64Text text) = some text := by
  have upper : casing.toUppercase ['B'] = ['B'] := casing.toUppercase_ascii (by decide)
  have decoded : Base64.decodePadded Base64.standard (base64Text text) = some (Utf8.encode text) :=
    Base64.decodePadded_standard _
  rw [decodeEncoding, upper, if_pos rfl, decoded, Option.bind_some, Utf8.decode_encode]

/-- A word in base64, behind its `=?`. -/
def wordTail (encoded : Text) : Text :=
  "UTF-8".toList ++ '?' :: (['B'] ++ '?' :: (encoded ++ ['?', '=']))

theorem encodeHeaderValue_eq (text : Text) : encodeHeaderValue text =
      if isAscii text && !hasBreak text then text else '=' :: '?' :: wordTail (base64Text text) := by
  have isWord : ∀ encoded : Text, "=?UTF-8?B?".toList ++ encoded ++ "?=".toList =
      '=' :: '?' :: wordTail encoded := by
    intro encoded
    simp [wordTail]
  rw [encodeHeaderValue, isWord, base64Text]

/-- An encoded word is read up to its end, whatever follows it. -/
theorem encodedWord_parts {charset encoding encoded decoded : Text}
    (solidCharset : '?' ∉ charset) (solidEncoding : '?' ∉ encoding) (solid : '?' ∉ encoded)
    (reads : decodeEncoding casing encoding encoded = some decoded) (rest : Text) :
    encodedWord casing (charset ++ '?' :: (encoding ++ '?' :: (encoded ++ '?' :: '=' :: rest))) =
      some (decoded, rest) := by
  rw [encodedWord, splitOnce_append solidCharset]
  simp only [Option.bind_eq_bind, Option.bind_some]
  rw [splitOnce_append solidEncoding]
  simp only [Option.bind_some]
  rw [splitOnce_append solid]
  simp [reads]

theorem encodedWord_wordTail {encoded decoded : Text} (solid : '?' ∉ encoded)
    (reads : decodeEncoding casing ['B'] encoded = some decoded) :
    encodedWord casing (wordTail encoded) = some (decoded, []) :=
  encodedWord_parts (by decide) (by decide) solid reads []

theorem decodeWords_word (found : encodedWord casing text = some (decoded, rest)) :
    decodeWords casing ('=' :: '?' :: text) = decoded ++ decodeWords casing (betweenWords rest) := by
  have isWord : ['=', '?'].isPrefixOf ('=' :: '?' :: text) = true := by simp
  rw [decodeWords, isWord, if_pos rfl, List.tail_cons]
  split
  next decoded' rest' found' =>
    cases found.symm.trans found'
    rfl
  next absent => cases found.symm.trans absent

theorem trim_word (encoded : Text) : trim ('=' :: '?' :: wordTail encoded) = '=' :: '?' :: wordTail encoded := by
  have enclosed := @trim_append_enclosed '=' '=' (by decide) (by decide) []
    ('?' :: ("UTF-8".toList ++ '?' :: (['B'] ++ '?' :: (encoded ++ ['?']))))
  simpa [wordTail, trimStart] using enclosed

/-- The word of a text is read back as the text. -/
theorem decodeHeaderValue_word (casing : Casing) (text : Text) :
    decodeHeaderValue casing ('=' :: '?' :: wordTail (base64Text text)) = text := by
  have hasWord : contains ('=' :: '?' :: wordTail (base64Text text)) ['=', '?'] = true :=
    contains_iff.mpr ⟨[], wordTail (base64Text text), rfl⟩
  have solid := @not_mem_base64Text '?' (by decide) (by decide) text
  have read := decodeWords_word (encodedWord_wordTail solid (decodeEncoding_base64Text casing text))
  have nothingLeft : betweenWords [] = [] := rfl
  rw [nothingLeft, decodeWords, List.append_nil] at read
  rw [decodeHeaderValue, trim_word, hasWord, if_pos rfl, read]

/-! ## What is decoded is no longer -/

theorem length_decodeQBytes_le (bytes : List UInt8) : (decodeQBytes bytes).length ≤ bytes.length := by
  induction bytes using decodeQBytes.induct with
  | case1 => exact Nat.le_refl _
  | case2 byte => exact Nat.le_refl _
  | case3 byte last => exact Nat.le_refl _
  | case4 byte first second rest escaped found ih =>
    rw [decodeQBytes, found]
    simp only [List.length_cons]
    omega
  | case5 byte first second rest absent ih =>
    rw [decodeQBytes, absent]
    simpa using ih

/-- An ASCII text of a word is at least as long as what it is decoded to. -/
theorem length_decodeEncoding_le {encoding encoded decoded : Text}
    (ascii : ∀ char ∈ encoded, char.toNat < 0x80)
    (reads : decodeEncoding casing encoding encoded = some decoded) : decoded.length ≤ encoded.length := by
  have octets : (Utf8.encode encoded).length = encoded.length := by
    rw [Utf8.encode_ascii ascii, List.length_map]
  unfold decodeEncoding at reads
  dsimp only at reads
  split at reads
  · obtain ⟨bytes, isBytes, isText⟩ := Option.bind_eq_some_iff.mp reads
    exact (Utf8.length_decode_le isText).trans (Base64.length_decodePadded_le isBytes)
  · split at reads
    · cases reads
      unfold decodeQEncoding
      cases isText : Utf8.decode (decodeQBytes (Utf8.encode encoded)) with
      | none => exact Nat.le_refl _
      | some text =>
        have shorter := length_decodeQBytes_le (Utf8.encode encoded)
        have text := Utf8.length_decode_le isText
        rw [Option.getD_some]
        omega
    · cases reads

/-- A word and what stands behind it. -/
theorem length_encodedWord_le (ascii : ∀ char ∈ text, char.toNat < 0x80)
    (found : encodedWord casing text = some (decoded, rest)) :
    decoded.length + rest.length ≤ text.length ∧ ∀ char ∈ rest, char.toNat < 0x80 := by
  simp only [encodedWord, Option.bind_eq_bind, Option.bind_eq_some_iff] at found
  obtain ⟨⟨charset, behindCharset⟩, one, ⟨encoding, behindEncoding⟩, two, ⟨encoded, last⟩, three,
    found⟩ := found
  obtain ⟨-, rfl⟩ := eq_of_splitOnce one
  obtain ⟨-, isBehind⟩ := eq_of_splitOnce two
  obtain ⟨-, isLast⟩ := eq_of_splitOnce three
  dsimp only at found isBehind isLast
  subst isBehind isLast
  have pieces := (List.forall_mem_cons.mp (List.forall_mem_append.mp (List.forall_mem_cons.mp
    (List.forall_mem_append.mp ascii).2).2).2).2
  obtain ⟨asciiEncoded, asciiLast⟩ := List.forall_mem_append.mp pieces
  split at found
  · obtain ⟨text, reads, same⟩ := Option.map_eq_some_iff.mp found
    cases same
    have shorter := length_decodeEncoding_le asciiEncoded reads
    refine ⟨?_, fun char mem =>
      (List.forall_mem_cons.mp asciiLast).2 char (List.mem_of_mem_tail mem)⟩
    simp only [List.length_append, List.length_cons, List.length_tail]
    omega
  · cases found

/-- The marks that begin a word. -/
theorem eq_marks {rest : Text} (begins : ['=', '?'].isPrefixOf (char :: rest) = true) :
    char :: rest = '=' :: '?' :: rest.tail := by
  obtain ⟨behind, isText⟩ := List.isPrefixOf_iff_prefix.mp begins
  obtain ⟨rfl, rfl⟩ := List.cons.inj isText
  rfl

/-- Marks that begin no word are read as they are. -/
theorem decodeWords_marks {text : Text} (absent : encodedWord casing text = none) :
    decodeWords casing ('=' :: '?' :: text) = '=' :: '?' :: decodeWords casing text := by
  have begins : ['=', '?'].isPrefixOf ('=' :: '?' :: text) = true := by simp
  rw [decodeWords, if_pos begins]
  split
  next decoded rest found => cases found.symm.trans absent
  next => rfl

theorem mem_of_mem_betweenWords {text : Text} (mem : char ∈ betweenWords text) : char ∈ text := by
  unfold betweenWords at mem
  split at mem
  · exact (List.dropWhile_suffix _).subset mem
  · exact mem

theorem length_decodeWords_le {text : Text}
    (ascii : ∀ char ∈ text, char.toNat < 0x80) : (decodeWords casing text).length ≤ text.length := by
  induction text using decodeWords.induct casing with
  | case1 =>
    rw [decodeWords]
  | case2 char rest begins decoded later found ih =>
    have isWord := eq_marks begins
    obtain ⟨-, asciiRest⟩ := List.forall_mem_cons.mp ascii
    obtain ⟨shorter, asciiLater⟩ := length_encodedWord_le
      (fun char mem => asciiRest char (List.mem_of_mem_tail mem)) found
    have between := length_betweenWords_le later
    have others := ih
      fun char mem => asciiLater char (mem_of_mem_betweenWords mem)
    rw [isWord, decodeWords_word found, List.length_append, List.length_cons, List.length_cons]
    omega
  | case3 char rest begins absent ih =>
    have isWord := eq_marks begins
    obtain ⟨-, asciiRest⟩ := List.forall_mem_cons.mp ascii
    have others := ih fun char mem => asciiRest char (List.mem_of_mem_tail mem)
    rw [isWord, decodeWords_marks absent]
    simpa using others
  | case4 char rest noMarks ih =>
    obtain ⟨-, asciiRest⟩ := List.forall_mem_cons.mp ascii
    have others := ih asciiRest
    rw [decodeWords, if_neg noMarks]
    simpa using others

/-- A word that is read is shorter than it is written. -/
theorem length_decodeWords_word_lt
    (ascii : ∀ char ∈ text, char.toNat < 0x80) (found : encodedWord casing text = some (decoded, rest)) :
    (decodeWords casing ('=' :: '?' :: text)).length < ('=' :: '?' :: text).length := by
  obtain ⟨shorter, asciiRest⟩ := length_encodedWord_le ascii found
  have between := length_betweenWords_le rest
  have others := @length_decodeWords_le casing (betweenWords rest)
    fun char mem => asciiRest char (mem_of_mem_betweenWords mem)
  rw [decodeWords_word found, List.length_append, List.length_cons, List.length_cons]
  omega

theorem length_decodeHeaderValue_le {text : Text} (ascii : ∀ char ∈ text, char.toNat < 0x80) :
    (decodeHeaderValue casing text).length ≤ text.length := by
  have inner : trim text <:+: text :=
    (List.rdropWhile_prefix _ _).isInfix.trans (List.dropWhile_suffix _).isInfix
  unfold decodeHeaderValue
  dsimp only
  split
  · exact (length_decodeWords_le fun char mem => ascii char (inner.subset mem)).trans
      inner.length_le
  · exact inner.length_le

/-! ## Texts that are read as they are -/

/-- Nothing in the text is read as an encoded word. -/
def HasNoWord (casing : Casing) (text : Text) : Prop :=
  ∀ rest, '=' :: '?' :: rest <:+ text → encodedWord casing rest = none

theorem HasNoWord.tail {rest : Text} (noWord : HasNoWord casing (char :: rest)) : HasNoWord casing rest :=
  fun word isSuffix => noWord word (isSuffix.trans (List.suffix_cons char rest))

theorem decodeWords_eq_self_iff {text : Text} (ascii : ∀ char ∈ text, char.toNat < 0x80) :
    decodeWords casing text = text ↔ HasNoWord casing text := by
  induction text using decodeWords.induct casing with
  | case1 =>
    rw [decodeWords, eq_self_iff_true, true_iff]
    exact fun rest isSuffix => absurd (List.suffix_nil.mp isSuffix) (List.cons_ne_nil _ _)
  | case2 char rest begins decoded later found ih =>
    have isWord := eq_marks begins
    rw [isWord] at ascii ⊢
    have shorter := length_decodeWords_word_lt
      (List.forall_mem_cons.mp (List.forall_mem_cons.mp ascii).2).2 found
    constructor
    · intro same
      rw [same] at shorter
      exact absurd shorter (Nat.lt_irrefl _)
    · intro noWord
      cases found.symm.trans (noWord rest.tail (List.suffix_refl _))
  | case3 char rest begins absent ih =>
    have isWord := eq_marks begins
    rw [isWord] at ascii ⊢
    have later := ih (List.forall_mem_cons.mp (List.forall_mem_cons.mp ascii).2).2
    rw [decodeWords_marks absent]
    simp only [List.cons.injEq, true_and, later]
    refine ⟨fun noWord word isSuffix => ?_, fun noWord => noWord.tail.tail⟩
    rcases List.suffix_cons_iff.mp isSuffix with whole | behind
    · simp only [List.cons.injEq, true_and] at whole
      rw [whole, absent]
    · rcases List.suffix_cons_iff.mp behind with isMark | inside
      · exact absurd (List.cons.inj isMark).1 (by decide)
      · exact noWord word inside
  | case4 char rest noMarks ih =>
    have later := ih (List.forall_mem_cons.mp ascii).2
    rw [decodeWords, if_neg noMarks]
    simp only [List.cons.injEq, true_and, later]
    refine ⟨fun noWord word isSuffix => ?_, HasNoWord.tail⟩
    rcases List.suffix_cons_iff.mp isSuffix with whole | inside
    · exact absurd (List.isPrefixOf_iff_prefix.mpr ⟨word, whole⟩) noMarks
    · exact noWord word inside

/-- An ASCII text is read as it is exactly where it has no white space at its edges and no
encoded word. -/
theorem decodeHeaderValue_eq_self_iff {text : Text} (ascii : ∀ char ∈ text, char.toNat < 0x80) :
    decodeHeaderValue casing text = text ↔ trim text = text ∧ HasNoWord casing text := by
  have inner : trim text <:+: text :=
    (List.rdropWhile_prefix _ _).isInfix.trans (List.dropWhile_suffix _).isInfix
  by_cases trimmed : trim text = text
  · have noWord : contains text ['=', '?'] = false → HasNoWord casing text := by
      intro absent rest isSuffix
      rw [← Bool.not_eq_true, contains_iff] at absent
      have begins : ['=', '?'] <+: '=' :: '?' :: rest := ⟨rest, rfl⟩
      exact absurd (begins.isInfix.trans isSuffix.isInfix) absent
    rw [decodeHeaderValue, trimmed, eq_self_iff_true, true_and]
    split
    · exact decodeWords_eq_self_iff ascii
    next absent => simpa using noWord (by simpa using absent)
  · refine iff_of_false (fun same => trimmed ?_) fun both => trimmed both.1
    have shorter : text.length ≤ (trim text).length := by
      have notLonger := @length_decodeHeaderValue_le casing (trim text)
        fun char mem => ascii char (inner.subset mem)
      rw [decodeHeaderValue, trim_trim] at notLonger
      rw [decodeHeaderValue] at same
      rwa [same] at notLonger
    exact inner.eq_of_length_le shorter

end TutaBridge.Mail
