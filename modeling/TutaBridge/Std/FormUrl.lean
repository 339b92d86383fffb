import TutaBridge.Std.Utf8

/-!
# Forms in an address

The query of an address as a form: names and values, joined with `=` and `&`. A byte that is
neither a letter, a digit nor one of four marks is written as `%` and two hexadecimal digits,
and a space as `+`. A reader splits before it decodes, so a value that was encoded is read back
whatever it holds.
-/

namespace TutaBridge.Std.FormUrl

/-- A hexadecimal digit in upper case. -/
def hexChar (value : Nat) : Char := Char.ofNat (if value < 10 then 48 + value else 55 + value)

/-- The value of a hexadecimal digit. -/
def hexValue? (char : Char) : Option Nat :=
  let code := char.toNat
  if 48 ≤ code ∧ code ≤ 57 then some (code - 48)
  else if 65 ≤ code ∧ code ≤ 70 then some (code - 55)
  else if 97 ≤ code ∧ code ≤ 102 then some (code - 87)
  else none

/-- A byte that stands for itself. -/
def isPlain (byte : UInt8) : Bool :=
  (Char.ofNat byte.toNat).isAlphanum || byte ∈ [42, 45, 46, 95]

/-- A byte as it is written. -/
def serializeByte (byte : UInt8) : Text :=
  if isPlain byte then [Char.ofNat byte.toNat]
  else if byte = 32 then ['+']
  else ['%', hexChar (byte.toNat / 16), hexChar (byte.toNat % 16)]

/-- `form_urlencoded::byte_serialize`. -/
def byteSerialize (bytes : List UInt8) : Text := bytes.flatMap serializeByte

/-- The bytes of a piece: a plus is a space, and `%` without two digits behind it is itself. -/
def decodeBytes : Text → List UInt8
  | [] => []
  | '%' :: first :: second :: rest =>
    match hexValue? first, hexValue? second with
    | some high, some low => UInt8.ofNat (high * 16 + low) :: decodeBytes rest
    | _, _ => 37 :: decodeBytes (first :: second :: rest)
  | '+' :: rest => 32 :: decodeBytes rest
  | char :: rest => String.utf8EncodeChar char ++ decodeBytes rest

/-- The text of a piece. -/
def decode (piece : Text) : Text := Utf8.decodeLossy (decodeBytes piece)

/-- A name and a value, split at the first `=`. -/
def readPair (piece : Text) : Text × Text :=
  let parts := (Text.splitOnce '=' piece).getD (piece, [])
  (decode parts.1, decode parts.2)

/-- `form_urlencoded::parse`. -/
def parse (query : Text) : List (Text × Text) :=
  ((query.splitOn '&').filter (· ≠ [])).map readPair

/-! ## A byte -/

theorem hexValue?_hexChar {value : Nat} (digit : value < 16) : hexValue? (hexChar value) = some value := by
  have table : ∀ value < 16, hexValue? (hexChar value) = some value := by decide
  exact table value digit

theorem decodeBytes_escaped (high low : Char) (rest : Text) {first second : Nat}
    (isHigh : hexValue? high = some first) (isLow : hexValue? low = some second) :
    decodeBytes ('%' :: high :: low :: rest) = UInt8.ofNat (first * 16 + second) :: decodeBytes rest := by
  rw [decodeBytes, isHigh, isLow]

theorem decodeBytes_plain {char : Char} (ascii : char.toNat < 0x80) (noMark : char ≠ '%' ∧ char ≠ '+')
    (rest : Text) : decodeBytes (char :: rest) = UInt8.ofNat char.toNat :: decodeBytes rest := by
  have encoded : String.utf8EncodeChar char = [UInt8.ofNat char.toNat] := by
    simpa [Utf8.encode] using Utf8.encode_cons_ascii ascii []
  rw [decodeBytes, encoded, List.singleton_append]
  · exact fun _ _ _ same _ => noMark.1 same
  · exact noMark.2

/-- A plain byte is an ASCII character that is neither a separator nor a mark of the encoding. -/
theorem plain_facts {byte : UInt8} (plain : isPlain byte = true) :
    (Char.ofNat byte.toNat).toNat = byte.toNat ∧ byte.toNat < 0x80 ∧
      ∀ mark ∈ ['&', '=', ';', '%', '+', '#'], Char.ofNat byte.toNat ≠ mark := by
  have table : ∀ code < 256, isPlain (UInt8.ofNat code) = true →
      (Char.ofNat code).toNat = code ∧ code < 0x80 ∧
        ∀ mark ∈ ['&', '=', ';', '%', '+', '#'], Char.ofNat code ≠ mark := by decide +kernel
  refine table byte.toNat byte.toNat_lt ?_
  rwa [UInt8.ofNat_toNat]

theorem mem_serializeByte {byte : UInt8} {char : Char} (mem : char ∈ serializeByte byte) :
    ∀ mark ∈ ['&', '=', ';', '#'], char ≠ mark := by
  have digits : ∀ value < 16, ∀ mark ∈ ['&', '=', ';', '#'], hexChar value ≠ mark := by decide
  have small : byte.toNat < 256 := byte.toNat_lt
  rw [serializeByte] at mem
  split at mem
  case isTrue plain =>
      obtain rfl := List.mem_singleton.mp mem
      exact fun mark isMark => (plain_facts plain).2.2 mark (by
        simp only [List.mem_cons, List.not_mem_nil, or_false] at isMark ⊢
        tauto)
  case isFalse =>
      split at mem
      · obtain rfl := List.mem_singleton.mp mem
        decide
      · simp only [List.mem_cons, List.not_mem_nil, or_false] at mem
        obtain rfl | rfl | rfl := mem
        · decide
        · exact digits _ (by omega)
        · exact digits _ (by omega)

/-- What is written for a byte is read as the byte. -/
theorem decodeBytes_serializeByte (byte : UInt8) (rest : Text) :
    decodeBytes (serializeByte byte ++ rest) = byte :: decodeBytes rest := by
  have small : byte.toNat < 256 := byte.toNat_lt
  rw [serializeByte]
  split
  case isTrue plain =>
      obtain ⟨code, ascii, noMark⟩ := plain_facts plain
      rw [List.singleton_append,
        decodeBytes_plain (by rwa [code]) ⟨noMark '%' (by simp), noMark '+' (by simp)⟩, code,
        UInt8.ofNat_toNat]
  case isFalse =>
      split
      case isTrue space =>
          subst space
          rfl
      case isFalse =>
          have value : byte.toNat / 16 * 16 + byte.toNat % 16 = byte.toNat := by omega
          simp only [List.cons_append, List.nil_append]
          rw [decodeBytes_escaped _ _ _ (hexValue?_hexChar (by omega)) (hexValue?_hexChar (by omega)),
            value, UInt8.ofNat_toNat]

/-! ## A value -/

theorem decodeBytes_byteSerialize (bytes : List UInt8) (rest : Text) :
    decodeBytes (byteSerialize bytes ++ rest) = bytes ++ decodeBytes rest := by
  induction bytes with
  | nil => rfl
  | cons byte later ih =>
    rw [byteSerialize, List.flatMap_cons, List.append_assoc, decodeBytes_serializeByte]
    exact congrArg _ ih

/-- What is encoded is read back. -/
theorem decode_byteSerialize (text : Text) : decode (byteSerialize (Utf8.encode text)) = text := by
  have bytes := decodeBytes_byteSerialize (Utf8.encode text) []
  rw [List.append_nil, decodeBytes, List.append_nil] at bytes
  rw [decode, bytes, Utf8.decodeLossy_encode]

theorem not_mem_byteSerialize {bytes : List UInt8} {mark : Char} (isMark : mark ∈ ['&', '=', ';', '#']) :
    mark ∉ byteSerialize bytes := fun mem => by
  obtain ⟨byte, -, written⟩ := List.mem_flatMap.mp mem
  exact mem_serializeByte written mark isMark rfl

/-- Text of ASCII characters that are no marks of the encoding stands for itself. -/
theorem decode_plain {text : Text}
    (plain : ∀ char ∈ text, char.toNat < 0x80 ∧ char ≠ '%' ∧ char ≠ '+') : decode text = text := by
  have bytes : decodeBytes text = Utf8.encode text := by
    induction text with
    | nil => rfl
    | cons char rest ih =>
      obtain ⟨⟨ascii, noMark⟩, later⟩ := List.forall_mem_cons.mp plain
      rw [decodeBytes_plain ascii noMark, ih later, Utf8.encode_cons_ascii ascii]
  rw [decode, bytes, Utf8.decodeLossy_encode]

/-! ## A query -/

/-- A name and a value as they stand in a query. -/
def pair (name value : Text) : Text := name ++ '=' :: value

theorem readPair_pair {name value : Text} (noSign : '=' ∉ name) :
    readPair (pair name value) = (decode name, decode value) := by
  rw [readPair, pair, Text.splitOnce_append noSign]
  rfl

theorem pair_ne_nil (name value : Text) : pair name value ≠ [] := by
  rw [pair]
  exact List.append_ne_nil_of_right_ne_nil _ (List.cons_ne_nil _ _)

/-- Pairs joined with `&` are read one by one. -/
theorem parse_intercalate {pairs : List (Text × Text)} (notEmpty : pairs ≠ [])
    (names : ∀ item ∈ pairs, '=' ∉ item.1 ∧ '&' ∉ item.1) (values : ∀ item ∈ pairs, '&' ∉ item.2) :
    parse (['&'].intercalate (pairs.map fun item => pair item.1 item.2)) =
      pairs.map fun item => (decode item.1, decode item.2) := by
  have noSeparator : ∀ piece ∈ pairs.map fun item => pair item.1 item.2, '&' ∉ piece := by
    intro piece mem
    obtain ⟨item, isItem, rfl⟩ := List.mem_map.mp mem
    rw [pair, List.mem_append, List.mem_cons, not_or, not_or]
    exact ⟨(names item isItem).2, by decide, values item isItem⟩
  rw [parse, List.splitOn_intercalate '&' noSeparator (by simpa using notEmpty), List.filter_eq_self.mpr,
    List.map_map]
  · exact List.map_congr_left fun item isItem => readPair_pair (names item isItem).1
  · intro piece mem
    obtain ⟨item, -, rfl⟩ := List.mem_map.mp mem
    exact decide_eq_true (pair_ne_nil _ _)

/-- Pieces that a separator closes are split into the pieces, with nothing behind the last. -/
theorem splitOn_closed {separator : Char} {pieces : List Text} (absent : ∀ piece ∈ pieces, separator ∉ piece) :
    (pieces.flatMap (· ++ [separator])).splitOn separator = pieces ++ [[]] := by
  have joined : pieces.flatMap (· ++ [separator]) = [separator].intercalate (pieces ++ [[]]) := by
    induction pieces with
    | nil => rfl
    | cons piece later ih =>
      rw [List.flatMap_cons, ih fun other mem =>
        absent other (List.mem_cons_of_mem _ mem)]
      cases later <;> simp
  rw [joined, List.splitOn_intercalate separator _ (by simp)]
  intro piece mem
  obtain isPiece | isLast := List.mem_append.mp mem
  · exact absent piece isPiece
  · rw [List.mem_singleton.mp isLast]
    exact List.not_mem_nil

end TutaBridge.Std.FormUrl
