import TutaBridge.Std.Text

/-!
# UTF-8

Bytes read as UTF-8, one byte at a time. An invalid part is as long as it could still
have become a character, so that a lossy reading puts one replacement character in its
place, and a strict one fails.
-/

namespace TutaBridge.Std.Utf8

/-- A character of which some bytes were read: how many it needs yet, the range of the
next one, and the code so far. -/
structure Begun where
  needed : Nat
  low : Nat
  high : Nat
  code : Nat
deriving DecidableEq, Repr

/-- What the first byte of a character gives, and the character it begins. -/
def lead (byte : Nat) : List (Option Char) × Option Begun :=
  if byte < 0x80 then ([some (Char.ofNat byte)], none)
  else if byte < 0xC2 then ([none], none)
  else if byte < 0xE0 then ([], some ⟨1, 0x80, 0xBF, byte - 0xC0⟩)
  else if byte < 0xF0 then
    ([], some ⟨2, if byte = 0xE0 then 0xA0 else 0x80, if byte = 0xED then 0x9F else 0xBF, byte - 0xE0⟩)
  else if byte < 0xF5 then
    ([], some ⟨3, if byte = 0xF0 then 0x90 else 0x80, if byte = 0xF4 then 0x8F else 0xBF, byte - 0xF0⟩)
  else ([none], none)

/-- What a byte gives; one that does not continue the character begins the next. -/
def next (begun : Option Begun) (byte : Nat) : List (Option Char) × Option Begun :=
  match begun with
  | none => lead byte
  | some begun =>
    if begun.low ≤ byte ∧ byte ≤ begun.high then
      let code := begun.code * 64 + (byte - 0x80)
      if begun.needed = 1 then ([some (Char.ofNat code)], none)
      else ([], some ⟨begun.needed - 1, 0x80, 0xBF, code⟩)
    else (none :: (lead byte).1, (lead byte).2)

/-- The characters of the bytes, `none` in the place of each invalid part. -/
def scan : Option Begun → List UInt8 → List (Option Char)
  | none, [] => []
  | some _, [] => [none]
  | begun, byte :: rest => (next begun byte.toNat).1 ++ scan (next begun byte.toNat).2 rest

/-- `str::from_utf8`. -/
def decode (bytes : List UInt8) : Option Text := (scan none bytes).mapM id

/-- `String::from_utf8_lossy`. -/
def decodeLossy (bytes : List UInt8) : Text :=
  (scan none bytes).map fun char => char.getD (Char.ofNat 0xFFFD)

/-- The bytes of a text. -/
def encode (text : Text) : List UInt8 := text.flatMap String.utf8EncodeChar

/-! ## What is encoded is read back -/

theorem scan_cons (begun : Option Begun) (byte : UInt8) (rest : List UInt8) : scan begun (byte :: rest) =
      (next begun byte.toNat).1 ++ scan (next begun byte.toNat).2 rest := by
  cases begun <;> rfl

theorem toNat_ofNat {value : Nat} (small : value < 256) : (UInt8.ofNat value).toNat = value :=
  UInt8.toNat_ofNat_of_lt' small

/-- A byte in the range of a character's last one ends the character. -/
theorem next_last {low high code byte : Nat} (inRange : low ≤ byte ∧ byte ≤ high) :
    next (some ⟨1, low, high, code⟩) byte = ([some (Char.ofNat (code * 64 + (byte - 0x80)))], none) := by
  rw [next, if_pos inRange]
  exact if_pos rfl

theorem next_more {needed low high code byte : Nat} (inRange : low ≤ byte ∧ byte ≤ high) :
    next (some ⟨needed + 2, low, high, code⟩) byte =
      ([], some ⟨needed + 1, 0x80, 0xBF, code * 64 + (byte - 0x80)⟩) := by
  rw [next, if_pos inRange]
  exact if_neg (show ¬ needed + 2 = 1 by omega)

theorem lead_two {byte : Nat} (low : 0xC2 ≤ byte) (high : byte < 0xE0) :
    lead byte = ([], some ⟨1, 0x80, 0xBF, byte - 0xC0⟩) := by
  rw [lead, if_neg (by omega), if_neg (by omega), if_pos high]

theorem lead_three {byte : Nat} (low : 0xE0 ≤ byte) (high : byte < 0xF0) :
    lead byte = ([], some ⟨2, if byte = 0xE0 then 0xA0 else 0x80,
      if byte = 0xED then 0x9F else 0xBF, byte - 0xE0⟩) := by
  rw [lead, if_neg (by omega), if_neg (by omega), if_neg (by omega), if_pos high]

theorem lead_four {byte : Nat} (low : 0xF0 ≤ byte) (high : byte < 0xF5) :
    lead byte = ([], some ⟨3, if byte = 0xF0 then 0x90 else 0x80,
      if byte = 0xF4 then 0x8F else 0xBF, byte - 0xF0⟩) := by
  rw [lead, if_neg (by omega), if_neg (by omega), if_neg (by omega), if_neg (by omega), if_pos high]

/-- The bytes of a character are read back as the character. -/
theorem scan_encodeChar_append (char : Char) (rest : List UInt8) :
    scan none (String.utf8EncodeChar char ++ rest) = some char :: scan none rest := by
  have valid : char.toNat < 0xD800 ∨ 0xDFFF < char.toNat ∧ char.toNat < 0x110000 := char.valid
  have back : Char.ofNat char.toNat = char := Char.ofNat_toNat char
  have sameCode : char.val.toNat = char.toNat := rfl
  rw [String.utf8EncodeChar, sameCode]
  split
  next one =>
    rw [List.singleton_append, scan_cons, toNat_ofNat (by omega), next, lead, if_pos (by omega), back]
    rfl
  · split
    next more two =>
      have code : (char.toNat / 64 % 0x20 + 0xC0 - 0xC0) * 64 + (char.toNat % 0x40 + 0x80 - 0x80) =
          char.toNat := by omega
      rw [List.cons_append, List.singleton_append, scan_cons, scan_cons, toNat_ofNat (by omega),
        toNat_ofNat (by omega), next, lead_two (by omega) (by omega)]
      dsimp only
      rw [next_last (by omega), code, back]
      rfl
    · split
      next more three =>
        have code : ((char.toNat / 4096 % 0x10 + 0xE0 - 0xE0) * 64 +
            (char.toNat / 64 % 0x40 + 0x80 - 0x80)) * 64 + (char.toNat % 0x40 + 0x80 - 0x80) =
              char.toNat := by omega
        rw [List.cons_append, List.cons_append, List.singleton_append, scan_cons, scan_cons, scan_cons,
          toNat_ofNat (by omega), toNat_ofNat (by omega), toNat_ofNat (by omega), next,
          lead_three (by omega) (by omega)]
        dsimp only
        rw [next_more (by split <;> split <;> omega)]
        dsimp only
        rw [next_last (by omega), code, back]
        rfl
      next more =>
        have code : (((char.toNat / 262144 % 0x08 + 0xF0 - 0xF0) * 64 +
            (char.toNat / 4096 % 0x40 + 0x80 - 0x80)) * 64 +
            (char.toNat / 64 % 0x40 + 0x80 - 0x80)) * 64 + (char.toNat % 0x40 + 0x80 - 0x80) =
              char.toNat := by omega
        rw [List.cons_append, List.cons_append, List.cons_append, List.singleton_append, scan_cons,
          scan_cons, scan_cons, scan_cons, toNat_ofNat (by omega), toNat_ofNat (by omega),
          toNat_ofNat (by omega), toNat_ofNat (by omega), next, lead_four (by omega) (by omega)]
        dsimp only
        rw [next_more (by split <;> split <;> omega)]
        dsimp only
        rw [next_more (by omega)]
        dsimp only
        rw [next_last (by omega), code, back]
        rfl

theorem scan_encode (text : Text) : scan none (encode text) = text.map some := by
  induction text with
  | nil => rfl
  | cons char rest ih =>
    rw [encode, List.flatMap_cons, scan_encodeChar_append, List.map_cons]
    exact congrArg (some char :: ·) ih

/-- A text is read back from its bytes. -/
theorem decode_encode (text : Text) : decode (encode text) = some text := by
  have sequence : ∀ text : Text, (text.map some).mapM id = some text := by
    intro text
    induction text with
    | nil => rfl
    | cons char rest ih =>
      rw [List.map_cons, List.mapM_cons, ih]
      rfl
  rw [decode, scan_encode, sequence]

theorem decodeLossy_encode (text : Text) : decodeLossy (encode text) = text := by
  rw [decodeLossy, scan_encode, List.map_map]
  exact List.map_id text

/-- A byte completes at most one character; what is begun counts as one that is owed. -/
theorem length_scan_le (begun : Option Begun) (bytes : List UInt8) :
    (scan begun bytes).length ≤ bytes.length + begun.toList.length := by
  have leads : ∀ byte, (lead byte).1.length + (lead byte).2.toList.length ≤ 1 := by
    intro byte
    unfold lead
    split_ifs <;> simp
  induction bytes generalizing begun with
  | nil => cases begun <;> simp [scan]
  | cons byte rest ih =>
    have step : (next begun byte.toNat).1.length + (next begun byte.toNat).2.toList.length ≤
        1 + begun.toList.length := by
      have first := leads byte.toNat
      unfold next
      cases begun with
      | none => simpa using first
      | some begun =>
        dsimp only
        split_ifs
        · simp
        · simp
        · simp only [List.length_cons, Option.toList_some, List.length_nil]
          omega
    have later := ih (next begun byte.toNat).2
    rw [scan_cons, List.length_append, List.length_cons]
    omega

theorem length_decode_le {bytes : List UInt8} {text : Text} (decoded : decode bytes = some text) :
    text.length ≤ bytes.length := by
  have sameLength : ∀ (read : List (Option Char)) (text : Text), read.mapM id = some text →
      text.length = read.length := by
    intro read
    induction read with
    | nil =>
      intro text isRead
      cases isRead
      rfl
    | cons first rest ih =>
      intro text isRead
      cases first with
      | none => cases isRead
      | some char =>
        rw [List.mapM_cons] at isRead
        cases later : rest.mapM id with
        | none =>
          rw [later] at isRead
          cases isRead
        | some others =>
          rw [later] at isRead
          cases isRead
          rw [List.length_cons, List.length_cons, ih others later]
  have scanned := length_scan_le none bytes
  rw [sameLength _ _ decoded]
  simpa using scanned

theorem encode_append (first second : Text) : encode (first ++ second) = encode first ++ encode second :=
  List.flatMap_append

theorem encode_cons_ascii {char : Char} (ascii : char.toNat < 0x80) (rest : Text) :
    encode (char :: rest) = UInt8.ofNat char.toNat :: encode rest := by
  have sameCode : char.val.toNat = char.toNat := rfl
  rw [encode, List.flatMap_cons, String.utf8EncodeChar, sameCode, if_pos (by omega)]
  rfl

/-- Each character of an ASCII text is one byte. -/
theorem encode_ascii {text : Text} (ascii : ∀ char ∈ text, char.toNat < 0x80) :
    encode text = text.map fun char => UInt8.ofNat char.toNat := by
  induction text with
  | nil => rfl
  | cons char rest ih =>
    obtain ⟨first, later⟩ := List.forall_mem_cons.mp ascii
    rw [encode_cons_ascii first, ih later, List.map_cons]

/-- The bytes of a text are the text's alone. -/
theorem encode_injective : Function.Injective encode := fun first second same =>
  Option.some.inj ((decode_encode first).symm.trans ((congrArg decode same).trans (decode_encode second)))

/-- Beyond ASCII a character has no byte below `0x80`. -/
theorem toNat_of_mem_encodeChar {char : Char} {byte : UInt8} (mem : byte ∈ String.utf8EncodeChar char) :
    byte.toNat = char.toNat ∧ char.toNat < 0x80 ∨ 0x80 ≤ byte.toNat := by
  have valid : char.toNat < 0xD800 ∨ 0xDFFF < char.toNat ∧ char.toNat < 0x110000 := char.valid
  have sameCode : char.val.toNat = char.toNat := rfl
  rw [String.utf8EncodeChar, sameCode] at mem
  split at mem
  next one =>
    rw [List.mem_singleton.mp mem, toNat_ofNat (by omega)]
    omega
  next more =>
    right
    split at mem
    · simp only [List.mem_cons, List.not_mem_nil, or_false] at mem
      rcases mem with rfl | rfl <;> rw [toNat_ofNat (by omega)] <;> omega
    · split at mem
      · simp only [List.mem_cons, List.not_mem_nil, or_false] at mem
        rcases mem with rfl | rfl | rfl <;> rw [toNat_ofNat (by omega)] <;> omega
      · simp only [List.mem_cons, List.not_mem_nil, or_false] at mem
        rcases mem with rfl | rfl | rfl | rfl <;> rw [toNat_ofNat (by omega)] <;> omega

/-- An ASCII byte is the byte of its own character only. -/
theorem mem_of_mem_encode {text : Text} {ascii : Char} (isAscii : ascii.toNat < 0x80)
    (mem : UInt8.ofNat ascii.toNat ∈ encode text) : ascii ∈ text := by
  obtain ⟨char, inText, isByte⟩ := List.mem_flatMap.mp mem
  rcases toNat_of_mem_encodeChar isByte with ⟨same, _⟩ | beyond
  · rw [toNat_ofNat (by omega)] at same
    exact Char.toNat_inj.mp same ▸ inText
  · rw [toNat_ofNat (by omega)] at beyond
    omega

end TutaBridge.Std.Utf8
