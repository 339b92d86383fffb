import TutaBridge.Std.Text

/-!
# UTF-16

A text as 16-bit units: a character beyond the basic plane is a pair of surrogates,
and a surrogate without its partner is refused.
-/

namespace TutaBridge.Std.Utf16

/-- `char::encode_utf16`. -/
def encodeChar (char : Char) : List UInt16 :=
  let code := char.toNat
  if code < 0x10000 then [.ofNat code]
  else [.ofNat (0xD800 + (code - 0x10000) / 0x400), .ofNat (0xDC00 + (code - 0x10000) % 0x400)]

/-- `str::encode_utf16`. -/
def encode (text : Text) : List UInt16 := text.flatMap encodeChar

/-- A unit that is no character of its own. -/
def isSurrogate (unit : UInt16) : Bool := 0xD800 ≤ unit.toNat && unit.toNat ≤ 0xDFFF

/-- `String::from_utf16`. -/
def decode : List UInt16 → Option Text
  | [] => some []
  | [unit] => if isSurrogate unit then none else some [Char.ofNat unit.toNat]
  | unit :: next :: rest =>
    if ¬ isSurrogate unit then (decode (next :: rest)).map (Char.ofNat unit.toNat :: ·)
    else if unit.toNat < 0xDC00 ∧ 0xDC00 ≤ next.toNat ∧ next.toNat ≤ 0xDFFF then
      (decode rest).map (Char.ofNat (0x10000 + (unit.toNat - 0xD800) * 0x400 + (next.toNat - 0xDC00)) :: ·)
    else none

/-- The units as bytes, each with its high byte first. -/
def toBigEndian (units : List UInt16) : List UInt8 :=
  units.flatMap fun unit => [.ofNat (unit.toNat / 256), .ofNat (unit.toNat % 256)]

/-- The units behind an even number of bytes; a last byte alone is left out. -/
def ofBigEndian : List UInt8 → List UInt16
  | high :: low :: rest => .ofNat (high.toNat * 256 + low.toNat) :: ofBigEndian rest
  | _ => []

theorem encodeChar_ne_nil (char : Char) : encodeChar char ≠ [] := by
  unfold encodeChar
  dsimp only
  split <;> exact List.cons_ne_nil _ _

/-- A unit that is no surrogate is the next character. -/
theorem decode_cons {unit : UInt16} {rest : List UInt16} (plain : isSurrogate unit = false) :
    decode (unit :: rest) = (decode rest).map (Char.ofNat unit.toNat :: ·) := by
  cases rest with
  | nil => simp [decode, plain]
  | cons next rest => simp [decode, plain]

/-- A character's units are read back as the character. -/
theorem decode_encodeChar_append (char : Char) (rest : List UInt16) :
    decode (encodeChar char ++ rest) = (decode rest).map (char :: ·) := by
  have valid : char.toNat < 0xD800 ∨ 0xDFFF < char.toNat ∧ char.toNat < 0x110000 := char.valid
  unfold encodeChar
  dsimp only
  split
  next basic =>
    have value : (UInt16.ofNat char.toNat).toNat = char.toNat := UInt16.toNat_ofNat_of_lt' basic
    have plain : isSurrogate (.ofNat char.toNat) = false := by
      simp only [isSurrogate, value, Bool.and_eq_false_iff, decide_eq_false_iff_not]
      omega
    rw [List.singleton_append, decode_cons plain, value, Char.ofNat_toNat]
  next supplementary =>
    have high : (UInt16.ofNat (0xD800 + (char.toNat - 0x10000) / 0x400)).toNat =
        0xD800 + (char.toNat - 0x10000) / 0x400 := UInt16.toNat_ofNat_of_lt' (by
          show _ < 2 ^ 16
          omega)
    have low : (UInt16.ofNat (0xDC00 + (char.toNat - 0x10000) % 0x400)).toNat =
        0xDC00 + (char.toNat - 0x10000) % 0x400 := UInt16.toNat_ofNat_of_lt' (by
          show _ < 2 ^ 16
          omega)
    have surrogate : isSurrogate (.ofNat (0xD800 + (char.toNat - 0x10000) / 0x400)) = true := by
      simp only [isSurrogate, high, Bool.and_eq_true, decide_eq_true_eq]
      omega
    have value : 0x10000 + (0xD800 + (char.toNat - 0x10000) / 0x400 - 0xD800) * 0x400 +
        (0xDC00 + (char.toNat - 0x10000) % 0x400 - 0xDC00) = char.toNat := by omega
    rw [List.cons_append, List.singleton_append, decode, if_neg (not_not.mpr surrogate), high, low,
      if_pos (by omega), value, Char.ofNat_toNat]

/-- A text is read back from its units. -/
theorem decode_encode (text : Text) : decode (encode text) = some text := by
  induction text with
  | nil => rfl
  | cons char rest ih =>
    rw [encode, List.flatMap_cons, decode_encodeChar_append]
    exact congrArg (Option.map (char :: ·)) ih

theorem toNat_charOfNat {code : Nat} (valid : code.isValidChar) : (Char.ofNat code).toNat = code := by
  rw [Char.ofNat, dif_pos valid]
  rfl

/-- What is read as a character comes back as the units read. -/
theorem encode_decode {units : List UInt16} {text : Text} (read : decode units = some text) :
    encode text = units := by
  have basic : ∀ unit : UInt16, isSurrogate unit = false → encodeChar (Char.ofNat unit.toNat) = [unit] := by
    intro unit plain
    have small : unit.toNat < 0x10000 := unit.toNat_lt
    simp only [isSurrogate, Bool.and_eq_false_iff, decide_eq_false_iff_not] at plain
    have value : (Char.ofNat unit.toNat).toNat = unit.toNat :=
      toNat_charOfNat (by
        rw [Nat.isValidChar]
        omega)
    rw [encodeChar, value, if_pos small, UInt16.ofNat_toNat]
  induction units using decode.induct generalizing text with
  | case1 =>
    cases read
    rfl
  | case2 unit surrogate => simp [decode, surrogate] at read
  | case3 unit plain =>
    rw [decode, if_neg plain, Option.some.injEq] at read
    subst read
    rw [encode, List.flatMap_singleton, basic unit (by simpa using plain)]
  | case4 unit next rest plain ih =>
    rw [decode, if_pos plain, Option.map_eq_some_iff] at read
    obtain ⟨later, isLater, rfl⟩ := read
    rw [encode, List.flatMap_cons, basic unit (by simpa using plain)]
    exact congrArg (unit :: ·) (ih isLater)
  | case5 unit next rest surrogate pair ih =>
    rw [decode, if_neg surrogate, if_pos pair, Option.map_eq_some_iff] at read
    obtain ⟨later, isLater, rfl⟩ := read
    simp only [isSurrogate, Bool.and_eq_true, decide_eq_true_eq, not_not] at surrogate
    have value : (Char.ofNat (0x10000 + (unit.toNat - 0xD800) * 0x400 + (next.toNat - 0xDC00))).toNat =
        0x10000 + (unit.toNat - 0xD800) * 0x400 + (next.toNat - 0xDC00) :=
      toNat_charOfNat (by
        rw [Nat.isValidChar]
        omega)
    have high : 0xD800 + (0x10000 + (unit.toNat - 0xD800) * 0x400 + (next.toNat - 0xDC00) - 0x10000) / 0x400 =
        unit.toNat := by omega
    have low : 0xDC00 + (0x10000 + (unit.toNat - 0xD800) * 0x400 + (next.toNat - 0xDC00) - 0x10000) % 0x400 =
        next.toNat := by omega
    rw [encode, List.flatMap_cons, encodeChar, value, if_neg (by omega), high, low, UInt16.ofNat_toNat,
      UInt16.ofNat_toNat]
    exact congrArg (unit :: next :: ·) (ih isLater)
  | case6 unit next rest surrogate unpaired =>
    rw [decode, if_neg surrogate, if_neg unpaired] at read
    cases read

/-- An even number of bytes comes back from its units. -/
theorem toBigEndian_ofBigEndian {bytes : List UInt8} (even : bytes.length % 2 = 0) :
    toBigEndian (ofBigEndian bytes) = bytes := by
  induction bytes using ofBigEndian.induct with
  | case1 high low rest ih =>
    have evenRest : rest.length % 2 = 0 := by
      rw [List.length_cons, List.length_cons] at even
      omega
    have highBound : high.toNat < 256 := high.toNat_lt
    have lowBound : low.toNat < 256 := low.toNat_lt
    have value : (UInt16.ofNat (high.toNat * 256 + low.toNat)).toNat = high.toNat * 256 + low.toNat :=
      UInt16.toNat_ofNat_of_lt' (by
        show _ < 2 ^ 16
        omega)
    have first : (high.toNat * 256 + low.toNat) / 256 = high.toNat := by omega
    have second : (high.toNat * 256 + low.toNat) % 256 = low.toNat := by omega
    rw [ofBigEndian, toBigEndian, List.flatMap_cons, value, first, second, UInt8.ofNat_toNat,
      UInt8.ofNat_toNat]
    exact congrArg (high :: low :: ·) (ih evenRest)
  | case2 bytes short =>
    cases bytes with
    | nil => rfl
    | cons high rest =>
      cases rest with
      | nil =>
        rw [List.length_singleton] at even
        omega
      | cons low rest => exact (short high low rest rfl).elim

theorem ofBigEndian_toBigEndian (units : List UInt16) : ofBigEndian (toBigEndian units) = units := by
  induction units with
  | nil => rfl
  | cons unit rest ih =>
    have bound : unit.toNat < 65536 := unit.toNat_lt
    have high : (UInt8.ofNat (unit.toNat / 256)).toNat = unit.toNat / 256 :=
      UInt8.toNat_ofNat_of_lt' (by
        show _ < 2 ^ 8
        omega)
    have low : (UInt8.ofNat (unit.toNat % 256)).toNat = unit.toNat % 256 :=
      UInt8.toNat_ofNat_of_lt' (by
        show _ < 2 ^ 8
        omega)
    have value : unit.toNat / 256 * 256 + unit.toNat % 256 = unit.toNat := by omega
    rw [toBigEndian, List.flatMap_cons, List.cons_append, List.cons_append, ofBigEndian, high, low,
      value, UInt16.ofNat_toNat]
    exact congrArg (unit :: ·) ih

theorem length_toBigEndian (units : List UInt16) : (toBigEndian units).length = units.length * 2 := by
  rw [toBigEndian, List.length_flatMap]
  simp

end TutaBridge.Std.Utf16
