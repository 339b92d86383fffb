import TutaBridge.Std.Base64
import TutaBridge.Std.Utf16

/-!
# Modified UTF-7

Mailbox names on the wire. Printable ASCII stands for itself, except `&`, which is
`&-`; any other run of characters is its UTF-16 in base64 between `&` and `-`.
-/

namespace TutaBridge.Imap.Utf7

open TutaBridge.Std

/-- The alphabet of `MODIFIED_B64`: `,` in the place of `/`. -/
def modifiedB64 : Base64.Alphabet :=
  "ABCDEFGHIJKLMNOPQRSTUVWXYZabcdefghijklmnopqrstuvwxyz0123456789+,".toList

def isDirect (char : Char) : Bool := 0x20 ≤ char.toNat && char.toNat ≤ 0x7E && char ≠ '&'

/-- The closure `flush` of `encode`. -/
def flush (shifted : List UInt16) : Text :=
  if shifted = [] then []
  else '&' :: ((Base64.encode modifiedB64 (Utf16.toBigEndian shifted)).toList ++ ['-'])

/-- The loop of `encode`, with the units not written yet. -/
def encodeFrom (shifted : List UInt16) : Text → Text
  | [] => flush shifted
  | char :: rest =>
    if char = '&' then flush shifted ++ '&' :: '-' :: encodeFrom [] rest
    else if isDirect char then flush shifted ++ char :: encodeFrom [] rest
    else encodeFrom (shifted ++ Utf16.encodeChar char) rest

/-- `utf7::encode`. -/
def encode (input : Text) : Text := encodeFrom [] input

/-- What stands between `&` and `-`. -/
def decodeChunk (chunk : Text) : Option Text :=
  if chunk = [] then some ['&']
  else
    (Base64.decode modifiedB64 (String.ofList chunk)).bind fun decoded =>
      if decoded.length % 2 ≠ 0 then none else Utf16.decode (Utf16.ofBigEndian decoded)

/-- The bytes of a character, each taken as a character. -/
def latin1 (char : Char) : Text :=
  (String.utf8EncodeChar char).map fun byte => Char.ofNat byte.toNat

/-- The loop of `decode`, with the chunk read so far after an `&`. -/
def decodeFrom : (chunk : Option Text) → Text → Option Text
  | none, [] => some []
  | some _, [] => none
  | none, char :: rest =>
    if char = '&' then decodeFrom (some []) rest
    else (decodeFrom none rest).map (latin1 char ++ ·)
  | some chunk, char :: rest =>
    if char = '-' then
      (decodeChunk chunk).bind fun run => (decodeFrom none rest).map (run ++ ·)
    else decodeFrom (some (chunk ++ [char])) rest

/-- `utf7::decode`. -/
def decode (input : Text) : Option Text := decodeFrom none input

/-! ## What is encoded is read back -/

theorem modifiedB64_distinct : modifiedB64.Nodup := by decide +kernel

theorem length_modifiedB64 : modifiedB64.length = 64 := by decide

theorem flush_nil : flush [] = [] := rfl

theorem flush_of_ne_nil {shifted : List UInt16} (some' : shifted ≠ []) : flush shifted =
      '&' :: ((Base64.encode modifiedB64 (Utf16.toBigEndian shifted)).toList ++ ['-']) :=
  if_neg some'

theorem latin1_of_isDirect {char : Char} (direct : isDirect char = true) : latin1 char = [char] := by
  have ascii : char.toNat ≤ 0x7E := by
    simp only [isDirect, Bool.and_eq_true, decide_eq_true_eq] at direct
    exact direct.1.2
  have oneByte : char.val.toNat ≤ 0x7F := Nat.le_succ_of_le ascii
  have byte : (UInt8.ofNat char.val.toNat).toNat = char.toNat := UInt8.toNat_ofNat_of_lt' (by
    show _ < 2 ^ 8
    omega)
  rw [latin1, String.utf8EncodeChar, if_pos oneByte, List.map_singleton]
  exact congrArg (fun code => [Char.ofNat code]) byte |>.trans (by rw [Char.ofNat_toNat])

theorem decodeFrom_chunk {chunk : Text} (closing : '-' ∉ chunk) (before rest : Text) :
    decodeFrom (some before) (chunk ++ '-' :: rest) =
      (decodeChunk (before ++ chunk)).bind fun run => (decodeFrom none rest).map (run ++ ·) := by
  induction chunk generalizing before with
  | nil => rw [List.nil_append, decodeFrom, if_pos rfl, List.append_nil]
  | cons head later ih =>
    obtain ⟨different, absent⟩ := not_or.mp (mt List.mem_cons.mpr closing)
    rw [List.cons_append, decodeFrom, if_neg (Ne.symm different), ih absent,
      List.append_assoc, List.singleton_append]

theorem decodeChunk_encode {text : Text} (notEmpty : text ≠ []) :
    decodeChunk (Base64.encode modifiedB64 (Utf16.toBigEndian (Utf16.encode text))).toList = some text := by
  have someUnits : Utf16.encode text ≠ [] := by
    obtain ⟨char, rest, rfl⟩ := List.exists_cons_of_ne_nil notEmpty
    rw [Utf16.encode, List.flatMap_cons]
    exact List.append_ne_nil_of_left_ne_nil (Utf16.encodeChar_ne_nil char) _
  have someBytes : Utf16.toBigEndian (Utf16.encode text) ≠ [] := by
    intro noBytes
    have length := Utf16.length_toBigEndian (Utf16.encode text)
    rw [noBytes, List.length_nil] at length
    have := List.length_pos_of_ne_nil someUnits
    omega
  rw [decodeChunk, if_neg (mt Base64.encode_eq_empty_iff.mp someBytes), String.ofList_toList,
    Base64.decode_encode modifiedB64_distinct length_modifiedB64, Option.bind_some, Utf16.length_toBigEndian,
    if_neg (by omega), Utf16.ofBigEndian_toBigEndian, Utf16.decode_encode]

/-- A run that was flushed is read back before what follows it. -/
theorem decodeFrom_flush (text rest : Text) : decodeFrom none (flush (Utf16.encode text) ++ rest) =
      (decodeFrom none rest).map (text ++ ·) := by
  rcases eq_or_ne text [] with rfl | notEmpty
  · simp [Utf16.encode, flush_nil]
  · have someUnits : Utf16.encode text ≠ [] := by
      obtain ⟨char, later, rfl⟩ := List.exists_cons_of_ne_nil notEmpty
      rw [Utf16.encode, List.flatMap_cons]
      exact List.append_ne_nil_of_left_ne_nil (Utf16.encodeChar_ne_nil char) _
    have closing : '-' ∉ (Base64.encode modifiedB64
        (Utf16.toBigEndian (Utf16.encode text))).toList := fun mem =>
      absurd (Base64.mem_alphabet_of_mem_encode length_modifiedB64 mem) (by decide)
    rw [flush_of_ne_nil someUnits, List.cons_append, List.append_assoc, List.singleton_append,
      decodeFrom, if_pos rfl, decodeFrom_chunk closing, List.nil_append,
      decodeChunk_encode notEmpty, Option.bind_some]

theorem decodeFrom_encodeFrom (pending text : Text) :
    decodeFrom none (encodeFrom (Utf16.encode pending) text) = some (pending ++ text) := by
  induction text generalizing pending with
  | nil =>
    have flushed := decodeFrom_flush pending []
    rw [List.append_nil] at flushed
    rw [encodeFrom, flushed]
    rfl
  | cons char rest ih =>
    have later : decodeFrom none (encodeFrom [] rest) = some rest := ih []
    rw [encodeFrom]
    split
    next isAmpersand =>
      rw [decodeFrom_flush, decodeFrom, if_pos rfl, decodeFrom, if_pos rfl, later, isAmpersand]
      rfl
    next notAmpersand =>
      split
      next direct =>
        rw [decodeFrom_flush, decodeFrom, if_neg notAmpersand, later, latin1_of_isDirect direct]
        rfl
      next shifted =>
        have joined : Utf16.encode pending ++ Utf16.encodeChar char = Utf16.encode (pending ++ [char]) := by
          rw [Utf16.encode, Utf16.encode, List.flatMap_append, List.flatMap_singleton]
        rw [joined, ih, List.append_assoc, List.singleton_append]

/-- A name is read back from the wire. -/
theorem decode_encode (text : Text) : decode (encode text) = some text :=
  decodeFrom_encodeFrom [] text

/-! ## What is encoded is printable -/

/-- The characters of a mailbox name on the wire. -/
def isPrintable (char : Char) : Bool := 0x20 ≤ char.toNat && char.toNat ≤ 0x7E

theorem isPrintable_of_isDirect {char : Char} (direct : isDirect char = true) : isPrintable char = true := by
  rw [isDirect, Bool.and_eq_true] at direct
  exact direct.1

theorem isPrintable_of_mem_flush {shifted : List UInt16} {char : Char}
    (mem : char ∈ flush shifted) : isPrintable char = true := by
  rcases eq_or_ne shifted [] with rfl | some'
  · rw [flush_nil] at mem
    exact absurd mem List.not_mem_nil
  · rw [flush_of_ne_nil some'] at mem
    rcases List.mem_cons.mp mem with rfl | mem
    · decide
    · rcases List.mem_append.mp mem with encoded | closing
      · have inAlphabet := Base64.mem_alphabet_of_mem_encode length_modifiedB64 encoded
        have printable : ∀ char ∈ modifiedB64, isPrintable char = true := by decide +kernel
        exact printable char inAlphabet
      · rw [List.mem_singleton.mp closing]
        decide

theorem isPrintable_of_mem_encodeFrom {shifted : List UInt16} {text : Text} {char : Char}
    (mem : char ∈ encodeFrom shifted text) : isPrintable char = true := by
  induction text generalizing shifted with
  | nil => exact isPrintable_of_mem_flush mem
  | cons head rest ih =>
    rw [encodeFrom] at mem
    split at mem
    next isAmpersand =>
      rcases List.mem_append.mp mem with flushed | later
      · exact isPrintable_of_mem_flush flushed
      · rcases List.mem_cons.mp later with rfl | later
        · decide
        · rcases List.mem_cons.mp later with rfl | later
          · decide
          · exact ih later
    next notAmpersand =>
      split at mem
      next direct =>
        rcases List.mem_append.mp mem with flushed | later
        · exact isPrintable_of_mem_flush flushed
        · rcases List.mem_cons.mp later with rfl | later
          · exact isPrintable_of_isDirect direct
          · exact ih later
      next => exact ih mem

/-- Every name goes out as printable ASCII and is read back as it was. -/
theorem encode_printable_decode (text : Text) :
    (∀ char ∈ encode text, isPrintable char = true) ∧ decode (encode text) = some text :=
  ⟨fun _ mem => isPrintable_of_mem_encodeFrom mem, decode_encode text⟩

example : encode "~peter/mail/台北/日本語".toList = "~peter/mail/&U,BTFw-/&ZeVnLIqe-".toList := by
  decide +kernel

end TutaBridge.Imap.Utf7
