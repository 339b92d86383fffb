import Mathlib.Algebra.Group.Nat.Defs
import Mathlib.Data.List.DropRight
import Mathlib.Data.List.GetD

/-!
# Base64

The `base64` engines over an arbitrary alphabet: three bytes are four digits, a last
group of one or two bytes is two or three digits, and a last digit with stray bits is
refused. With `NO_PAD` that is all; with padding, `=` fills the last group up.
-/

namespace TutaBridge.Std.Base64

variable {bytes : List UInt8}

/-- The 64 digits in order of their value. -/
abbrev Alphabet := List Char

/-- The digit values of the bytes, six bits at a time. -/
def digits : List UInt8 → List Nat
  | a :: b :: c :: rest =>
    let bits := a.toNat * 65536 + b.toNat * 256 + c.toNat
    bits / 262144 :: bits / 4096 % 64 :: bits / 64 % 64 :: bits % 64 :: digits rest
  | [a, b] =>
    let bits := a.toNat * 1024 + b.toNat * 4
    [bits / 4096, bits / 64 % 64, bits % 64]
  | [a] => [a.toNat / 4, a.toNat % 4 * 16]
  | [] => []

/-- The bytes behind digit values, refusing a length no byte string has and a
last digit whose unused bits are set. -/
def undigits : List Nat → Option (List UInt8)
  | a :: b :: c :: d :: rest => do
      let bits := a * 262144 + b * 4096 + c * 64 + d
      let tail ← undigits rest
      return .ofNat (bits / 65536) :: .ofNat (bits / 256 % 256) :: .ofNat (bits % 256) :: tail
  | [a, b, c] =>
    let bits := a * 4096 + b * 64 + c
    if c % 4 = 0 then some [.ofNat (bits / 1024), .ofNat (bits / 4 % 256)] else none
  | [a, b] => if b % 16 = 0 then some [.ofNat (a * 4 + b / 16)] else none
  | [_] => none
  | [] => some []

/-- `Engine::encode`. -/
def encode (alphabet : Alphabet) (bytes : List UInt8) : String :=
  String.ofList ((digits bytes).map fun digit => alphabet.getD digit '=')

/-- `Engine::encode` of an engine that pads. -/
def encodePadded (alphabet : Alphabet) (bytes : List UInt8) : String :=
  encode alphabet bytes ++ String.ofList (List.replicate ((3 - bytes.length % 3) % 3) '=')

/-- `Engine::decode`. -/
def decode (alphabet : Alphabet) (text : String) : Option (List UInt8) := do
  undigits (← text.toList.mapM fun char => alphabet.idxOf? char)

/-- `Engine::decode` of an engine that requires padding. -/
def decodePadded (alphabet : Alphabet) (text : List Char) : Option (List UInt8) :=
  let body := text.rdropWhile (· = '=')
  if text.length % 4 = 0 ∧ text.length ≤ body.length + 2 then decode alphabet (String.ofList body)
  else none

/-- The alphabet of `STANDARD`. -/
def standard : Alphabet :=
  "ABCDEFGHIJKLMNOPQRSTUVWXYZabcdefghijklmnopqrstuvwxyz0123456789+/".toList

example : encodePadded standard [0, 117, 0, 112, 119] = "AHUAcHc=" := by decide

example : decodePadded standard "AHUAcHc=".toList = some [0, 117, 0, 112, 119] := by decide

example : decodePadded standard "AHUAcHc".toList = none := by decide

/-! ## What is encoded is read back -/

theorem digits_lt {digit : Nat} (mem : digit ∈ digits bytes) : digit < 64 := by
  induction bytes using digits.induct with
  | case1 a b c rest ih =>
    have aBound : a.toNat < 256 := a.toNat_lt
    have bBound : b.toNat < 256 := b.toNat_lt
    have cBound : c.toNat < 256 := c.toNat_lt
    simp only [digits, List.mem_cons] at mem
    rcases mem with first | second | third | fourth | later
    · omega
    · omega
    · omega
    · omega
    · exact ih later
  | case2 a b =>
    have aBound : a.toNat < 256 := a.toNat_lt
    have bBound : b.toNat < 256 := b.toNat_lt
    simp only [digits, List.mem_cons, List.not_mem_nil, or_false] at mem
    omega
  | case3 a =>
    have aBound : a.toNat < 256 := a.toNat_lt
    simp only [digits, List.mem_cons, List.not_mem_nil, or_false] at mem
    omega
  | case4 => cases mem

theorem undigits_digits (bytes : List UInt8) : undigits (digits bytes) = some bytes := by
  induction bytes using digits.induct with
  | case1 a b c rest ih =>
    have aBound : a.toNat < 256 := a.toNat_lt
    have bBound : b.toNat < 256 := b.toNat_lt
    have cBound : c.toNat < 256 := c.toNat_lt
    have group : ∀ bits : Nat, bits / 262144 * 262144 + bits / 4096 % 64 * 4096 +
        bits / 64 % 64 * 64 + bits % 64 = bits := by omega
    have high : (a.toNat * 65536 + b.toNat * 256 + c.toNat) / 65536 = a.toNat := by omega
    have middle : (a.toNat * 65536 + b.toNat * 256 + c.toNat) / 256 % 256 = b.toNat := by omega
    have low : (a.toNat * 65536 + b.toNat * 256 + c.toNat) % 256 = c.toNat := by omega
    simp only [digits, undigits]
    rw [ih]
    show some (UInt8.ofNat _ :: UInt8.ofNat _ :: UInt8.ofNat _ :: rest) = _
    rw [group, high, middle, low, UInt8.ofNat_toNat, UInt8.ofNat_toNat, UInt8.ofNat_toNat]
  | case2 a b =>
    have aBound : a.toNat < 256 := a.toNat_lt
    have bBound : b.toNat < 256 := b.toNat_lt
    have group : ∀ bits : Nat, bits / 4096 * 4096 + bits / 64 % 64 * 64 + bits % 64 = bits := by
      omega
    have high : (a.toNat * 1024 + b.toNat * 4) / 1024 = a.toNat := by omega
    have low : (a.toNat * 1024 + b.toNat * 4) / 4 % 256 = b.toNat := by omega
    have unused : (a.toNat * 1024 + b.toNat * 4) % 64 % 4 = 0 := by omega
    simp only [digits, undigits]
    rw [if_pos unused, group, high, low, UInt8.ofNat_toNat, UInt8.ofNat_toNat]
  | case3 a =>
    have value : a.toNat / 4 * 4 + a.toNat % 4 * 16 / 16 = a.toNat := by omega
    have unused : a.toNat % 4 * 16 % 16 = 0 := by omega
    simp only [digits, undigits]
    rw [if_pos unused, value, UInt8.ofNat_toNat]
  | case4 => rfl

/-- The bytes behind digits have those digits, as a last digit with stray bits is refused. -/
theorem digits_undigits {values : List Nat} (small : ∀ value ∈ values, value < 64)
    (read : undigits values = some bytes) : digits bytes = values := by
  have back : ∀ value : Nat, value < 256 → (UInt8.ofNat value).toNat = value := fun value fits =>
    UInt8.toNat_ofNat_of_lt' fits
  induction values using undigits.induct generalizing bytes with
  | case1 a b c d rest ih =>
    simp only [List.forall_mem_cons] at small
    obtain ⟨aSmall, bSmall, cSmall, dSmall, restSmall⟩ := small
    obtain ⟨tail, isTail, same⟩ := Option.bind_eq_some_iff.mp read
    cases same
    have total : (a * 262144 + b * 4096 + c * 64 + d) / 65536 * 65536 +
        (a * 262144 + b * 4096 + c * 64 + d) / 256 % 256 * 256 +
        (a * 262144 + b * 4096 + c * 64 + d) % 256 = a * 262144 + b * 4096 + c * 64 + d := by
      omega
    have first : (a * 262144 + b * 4096 + c * 64 + d) / 262144 = a := by omega
    have second : (a * 262144 + b * 4096 + c * 64 + d) / 4096 % 64 = b := by omega
    have third : (a * 262144 + b * 4096 + c * 64 + d) / 64 % 64 = c := by omega
    have last : (a * 262144 + b * 4096 + c * 64 + d) % 64 = d := by omega
    rw [digits, back _ (by omega), back _ (by omega), back _ (by omega), total, first, second, third,
      last, ih restSmall isTail]
  | case2 a b c noBits =>
    simp only [List.forall_mem_cons] at small
    obtain ⟨aSmall, bSmall, cSmall, -⟩ := small
    rw [undigits, if_pos noBits] at read
    cases read
    have total : (a * 4096 + b * 64 + c) / 1024 * 1024 + (a * 4096 + b * 64 + c) / 4 % 256 * 4 =
        a * 4096 + b * 64 + c := by omega
    have first : (a * 4096 + b * 64 + c) / 4096 = a := by omega
    have second : (a * 4096 + b * 64 + c) / 64 % 64 = b := by omega
    have last : (a * 4096 + b * 64 + c) % 64 = c := by omega
    rw [digits, back _ (by omega), back _ (by omega), total, first, second, last]
  | case3 a b c stray =>
    rw [undigits, if_neg stray] at read
    cases read
  | case4 a b noBits =>
    simp only [List.forall_mem_cons] at small
    obtain ⟨aSmall, bSmall, -⟩ := small
    rw [undigits, if_pos noBits] at read
    cases read
    have first : (a * 4 + b / 16) / 4 = a := by omega
    have last : (a * 4 + b / 16) % 4 * 16 = b := by omega
    rw [digits, back _ (by omega), first, last]
  | case5 a b stray =>
    rw [undigits, if_neg stray] at read
    cases read
  | case6 a => cases read
  | case7 =>
    cases read
    rfl

theorem digits_eq_nil_iff : digits bytes = [] ↔ bytes = [] := by
  induction bytes using digits.induct <;> simp [digits]

section Alphabet

variable {alphabet : Alphabet}

/-- A digit of the alphabet is read back as its value. -/
theorem idxOf?_getD (distinct : alphabet.Nodup) {digit : Nat} (inRange : digit < alphabet.length)
    (default : Char) : alphabet.idxOf? (alphabet.getD digit default) = some digit := by
  rw [List.getD_eq_getElem _ _ inRange, List.idxOf?_eq_some_iff]
  refine ⟨inRange, rfl, fun earlier before same => ?_⟩
  have := (List.getElem_inj distinct).mp same
  omega

/-- The text of the bytes has only digits of the alphabet. -/
theorem mem_alphabet_of_mem_encode (full : alphabet.length = 64) {char : Char}
    (mem : char ∈ (encode alphabet bytes).toList) : char ∈ alphabet := by
  rw [encode, String.toList_ofList, List.mem_map] at mem
  obtain ⟨digit, isDigit, rfl⟩ := mem
  have inRange : digit < alphabet.length := full ▸ digits_lt isDigit
  rw [List.getD_eq_getElem _ _ inRange]
  exact List.getElem_mem inRange

theorem encode_eq_empty_iff : (encode alphabet bytes).toList = [] ↔ bytes = [] := by
  rw [encode, String.toList_ofList, List.map_eq_nil_iff, digits_eq_nil_iff]

/-- Bytes are read back from their text. -/
theorem decode_encode (distinct : alphabet.Nodup) (full : alphabet.length = 64)
    (bytes : List UInt8) : decode alphabet (encode alphabet bytes) = some bytes := by
  have values : ∀ digitValues : List Nat, (∀ digit ∈ digitValues, digit < 64) →
      (digitValues.map fun digit => alphabet.getD digit '=').mapM
        (fun char => alphabet.idxOf? char) = some digitValues := by
    intro digitValues inRange
    induction digitValues with
    | nil => rfl
    | cons digit rest ih =>
      obtain ⟨first, later⟩ := List.forall_mem_cons.mp inRange
      rw [List.map_cons, List.mapM_cons, idxOf?_getD distinct (full ▸ first), ih later]
      rfl
  rw [decode, encode, String.toList_ofList, values _ fun _ => digits_lt]
  exact undigits_digits bytes

/-- A text that is read is the text of its bytes. -/
theorem encode_decode (full : alphabet.length = 64) {text : String}
    (read : decode alphabet text = some bytes) : encode alphabet bytes = text := by
  have chars : ∀ (chars : List Char) (values : List Nat),
      chars.mapM (fun char => alphabet.idxOf? char) = some values →
        (∀ value ∈ values, value < 64) ∧ values.map (fun digit => alphabet.getD digit '=') = chars := by
    intro chars
    induction chars with
    | nil =>
      rintro values ⟨⟩
      exact ⟨List.forall_mem_nil _, rfl⟩
    | cons char rest ih =>
      intro values isRead
      rw [List.mapM_cons] at isRead
      obtain ⟨value, isValue, isRead⟩ := Option.bind_eq_some_iff.mp isRead
      obtain ⟨later, isLater, same⟩ := Option.bind_eq_some_iff.mp isRead
      cases same
      obtain ⟨laterSmall, laterChars⟩ := ih later isLater
      obtain ⟨inRange, isChar, -⟩ := List.idxOf?_eq_some_iff.mp isValue
      refine ⟨List.forall_mem_cons.mpr ⟨full ▸ inRange, laterSmall⟩, ?_⟩
      rw [List.map_cons, laterChars, List.getD_eq_getElem _ _ inRange, isChar]
  obtain ⟨values, isRead, isBytes⟩ := Option.bind_eq_some_iff.mp read
  obtain ⟨small, isText⟩ := chars text.toList values isRead
  rw [encode, digits_undigits small isBytes, isText, String.ofList_toList]

/-- As many digits as a text of the bytes has are missing to a whole group. -/
theorem length_digits (bytes : List UInt8) : ((digits bytes).length + (3 - bytes.length % 3) % 3) % 4 = 0 := by
  induction bytes using digits.induct with
  | case1 a b c rest ih =>
    simp only [digits, List.length_cons]
    omega
  | case2 a b => simp [digits]
  | case3 a => simp [digits]
  | case4 => simp [digits]

/-- Every three bytes, or what is left of them, are four characters. -/
theorem length_encodePadded (alphabet : Alphabet) (bytes : List UInt8) :
    (encodePadded alphabet bytes).toList.length = 4 * ((bytes.length + 2) / 3) := by
  have groups : (digits bytes).length + (3 - bytes.length % 3) % 3 = 4 * ((bytes.length + 2) / 3) := by
    induction bytes using digits.induct with
    | case1 a b c rest ih =>
      simp only [digits, List.length_cons]
      omega
    | case2 a b => simp [digits]
    | case3 a => simp [digits]
    | case4 => simp [digits]
  simp only [encodePadded, encode, String.toList_append, String.toList_ofList, List.length_append,
    List.length_map, List.length_replicate, groups]

/-- Bytes are read back from their padded text. -/
theorem decodePadded_encodePadded (distinct : alphabet.Nodup) (full : alphabet.length = 64)
    (noPad : '=' ∉ alphabet) (bytes : List UInt8) :
    decodePadded alphabet (encodePadded alphabet bytes).toList = some bytes := by
  have body : (encodePadded alphabet bytes).toList.rdropWhile (· = '=') = (encode alphabet bytes).toList := by
    have solid : (encode alphabet bytes).toList.rdropWhile (· = '=') = (encode alphabet bytes).toList := by
      rw [List.rdropWhile_eq_self_iff]
      intro notEmpty
      have digit := mem_alphabet_of_mem_encode full (List.getLast_mem notEmpty)
      simp only [decide_eq_true_eq]
      exact fun same => noPad (same ▸ digit)
    rw [encodePadded, String.toList_append, String.toList_ofList, List.rdropWhile,
      List.reverse_append, List.reverse_replicate, List.dropWhile_append_of_pos, ← List.rdropWhile,
      solid]
    intro char mem
    simp [List.eq_of_mem_replicate mem]
  have width : (encodePadded alphabet bytes).toList.length =
      (encode alphabet bytes).toList.length + (3 - bytes.length % 3) % 3 := by
    simp [encodePadded]
  have digitCount : (encode alphabet bytes).toList.length = (digits bytes).length := by
    simp [encode]
  have whole := length_digits bytes
  rw [decodePadded, body, if_pos, String.ofList_toList, decode_encode distinct full]
  omega

/-- A padded text has nothing but digits and the padding. -/
theorem mem_encodePadded (full : alphabet.length = 64) {char : Char}
    (mem : char ∈ (encodePadded alphabet bytes).toList) : char ∈ alphabet ∨ char = '=' := by
  rw [encodePadded, String.toList_append, String.toList_ofList, List.mem_append] at mem
  exact mem.imp (mem_alphabet_of_mem_encode full) List.eq_of_mem_replicate

theorem standard_distinct : standard.Nodup := by decide +kernel

theorem length_standard : standard.length = 64 := by decide

theorem pad_not_mem_standard : '=' ∉ standard := by decide

theorem decodePadded_standard (bytes : List UInt8) :
    decodePadded standard (encodePadded standard bytes).toList = some bytes :=
  decodePadded_encodePadded standard_distinct length_standard pad_not_mem_standard bytes

/-- What holds of the digits and of the padding holds of every character of a text. -/
theorem forall_mem_standard {holds : Char → Prop} (digits : ∀ char ∈ standard, holds char)
    (pad : holds '=') (bytes : List UInt8) : ∀ char ∈ (encodePadded standard bytes).toList, holds char := by
  intro char mem
  rcases mem_encodePadded length_standard mem with digit | rfl
  · exact digits char digit
  · exact pad

/-- A text with a character that is no digit is not read. -/
theorem decodePadded_eq_none {text : List Char} {char : Char} (mem : char ∈ text)
    (noDigit : char ∉ alphabet) (notPad : char ≠ '=') : decodePadded alphabet text = none := by
  have inBody : char ∈ text.rdropWhile (· = '=') := by
    have split := @List.takeWhile_append_dropWhile _ (· = '=') text.reverse
    rw [← List.mem_reverse, ← split, List.mem_append] at mem
    have notPadding : char ∉ text.reverse.takeWhile (· = '=') :=
      fun inPadding => notPad (by simpa using List.mem_takeWhile_imp inPadding)
    exact List.mem_reverse.mpr (mem.resolve_left notPadding)
  have unread : ∀ chars : List Char, char ∈ chars → (chars.mapM fun char => alphabet.idxOf? char) = none := by
    intro chars
    induction chars with
    | nil => exact fun inChars => absurd inChars List.not_mem_nil
    | cons head rest ih =>
      intro inChars
      rw [List.mapM_cons]
      rcases List.mem_cons.mp inChars with rfl | later
      · have notFound : alphabet.idxOf? char = none := List.idxOf?_eq_none_iff.mpr noDigit
        rw [notFound]
        rfl
      · rw [ih later]
        cases alphabet.idxOf? head <;> rfl
  unfold decodePadded
  dsimp only
  split
  · rw [decode, String.toList_ofList, unread _ inBody]
    rfl
  · rfl

end Alphabet

/-! ## What is read is shorter -/

theorem length_undigits_le {values : List Nat} (read : undigits values = some bytes) :
    bytes.length ≤ values.length := by
  induction values using undigits.induct generalizing bytes with
  | case1 a b c d rest ih =>
    simp only [undigits, Option.bind_eq_bind, Option.bind_eq_some_iff] at read
    obtain ⟨tail, isTail, same⟩ := read
    cases same
    have later := ih isTail
    simp only [List.length_cons]
    omega
  | case2 a b c whole =>
    simp only [undigits, if_pos whole] at read
    cases read
    simp
  | case3 a b c stray =>
    simp only [undigits, if_neg stray] at read
    cases read
  | case4 a b whole =>
    simp only [undigits, if_pos whole] at read
    cases read
    simp
  | case5 a b stray =>
    simp only [undigits, if_neg stray] at read
    cases read
  | case6 a => cases read
  | case7 =>
    cases read
    exact Nat.le_refl _

theorem length_decodePadded_le {alphabet : Alphabet} {text : List Char}
    (read : decodePadded alphabet text = some bytes) : bytes.length ≤ text.length := by
  have sameLength : ∀ (chars : List Char) (values : List Nat),
      (chars.mapM fun char => alphabet.idxOf? char) = some values → values.length = chars.length := by
    intro chars
    induction chars with
    | nil =>
      intro values isRead
      cases isRead
      rfl
    | cons char rest ih =>
      intro values isRead
      simp only [List.mapM_cons, Option.bind_eq_bind, Option.bind_eq_some_iff] at isRead
      obtain ⟨value, -, later, isLater, same⟩ := isRead
      cases same
      rw [List.length_cons, List.length_cons, ih later isLater]
  unfold decodePadded at read
  dsimp only at read
  split at read
  · simp only [decode, String.toList_ofList, Option.bind_eq_bind, Option.bind_eq_some_iff] at read
    obtain ⟨values, isRead, isBytes⟩ := read
    have shorter := length_undigits_le isBytes
    have same := sameLength _ _ isRead
    have body := (List.rdropWhile_prefix (· = '=') text).length_le
    omega
  · cases read

end TutaBridge.Std.Base64
