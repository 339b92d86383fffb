import TutaBridge.Std.LineBlock
import TutaBridge.Std.Utf8

/-!
# Slices of a text

A `str` is sliced at byte positions. Slicing panics where a position is beyond the end or inside
a character, so a slice is `none` there. Where a text is put together of parts, it is sliced
between them, and inside a part of ASCII it is sliced anywhere.
-/

namespace TutaBridge.Std.Text

variable {position : Nat} {text : Text} {mark : Char}

/-- `str::len`. -/
def byteLength (text : Text) : Nat := (Utf8.encode text).length

/-- The text before and the text behind a byte position. -/
def splitAt? : Nat → Text → Option (Text × Text)
  | 0, text => some ([], text)
  | _ + 1, [] => none
  | position + 1, char :: rest =>
    if char.utf8Size ≤ position + 1 then
      (splitAt? (position + 1 - char.utf8Size) rest).map fun parts => (char :: parts.1, parts.2)
    else none

/-- `&text[position..]`. -/
def sliceFrom? (position : Nat) (text : Text) : Option Text := (splitAt? position text).map Prod.snd

/-- `&text[..position]`. -/
def sliceTo? (position : Nat) (text : Text) : Option Text := (splitAt? position text).map Prod.fst

/-- `&text[first..last]`. -/
def slice? (first last : Nat) (text : Text) : Option Text :=
  (sliceTo? last text).bind (sliceFrom? first)

/-- `str::find`. -/
def find (pattern text : Text) : Option Nat := (before? pattern text).map byteLength

/-- `str::rfind` of a character. -/
def rfind (mark : Char) (text : Text) : Option Nat :=
  if mark ∈ text then some (byteLength (text.rdropWhile (· ≠ mark)).dropLast) else none

/-- `&bytes[first..last]`. -/
def sliceBytes? (first last : Nat) (bytes : List UInt8) : Option (List UInt8) :=
  if first ≤ last ∧ last ≤ bytes.length then some ((bytes.take last).drop first) else none

/-- `str::is_char_boundary`. -/
def IsCharBoundary (position : Nat) (text : Text) : Prop :=
  ∃ front back, text = front ++ back ∧ byteLength front = position

/-- A pattern stands at a byte position and at none before it. -/
structure IsFirst (pattern : Text) (position : Nat) (text : Text) : Prop where
  occurs : ∃ front back, text = front ++ pattern ++ back ∧ byteLength front = position
  least : ∀ front back, text = front ++ pattern ++ back → position ≤ byteLength front

/-! ## Lengths -/

@[simp] theorem byteLength_nil : byteLength [] = 0 := rfl

@[simp] theorem byteLength_append (first second : Text) :
    byteLength (first ++ second) = byteLength first + byteLength second := by
  rw [byteLength, Utf8.encode_append, List.length_append]
  rfl

@[simp] theorem byteLength_cons (char : Char) (rest : Text) :
    byteLength (char :: rest) = char.utf8Size + byteLength rest := by
  rw [byteLength, Utf8.encode, List.flatMap_cons, List.length_append, String.length_utf8EncodeChar]
  rfl

/-- Each character of an ASCII text is one byte. -/
theorem byteLength_ascii (ascii : ∀ char ∈ text, char.toNat < 128) : byteLength text = text.length := by
  rw [byteLength, Utf8.encode_ascii ascii, List.length_map]

/-! ## Slicing -/

section Parts

variable (front middle back : Text)

theorem splitAt?_append : splitAt? (byteLength front) (front ++ back) = some (front, back) := by
  induction front with
  | nil => rw [byteLength_nil, List.nil_append, splitAt?]
  | cons char rest ih =>
    obtain ⟨size, isSize⟩ := Nat.exists_eq_succ_of_ne_zero char.utf8Size_pos.ne'
    have position : byteLength (char :: rest) = size + byteLength rest + 1 := by
      rw [byteLength_cons]
      omega
    have later : size + byteLength rest + 1 - char.utf8Size = byteLength rest := by omega
    rw [position, List.cons_append, splitAt?, if_pos (by omega), later, ih]
    rfl

theorem sliceFrom?_append : sliceFrom? (byteLength front) (front ++ back) = some back := by
  rw [sliceFrom?, splitAt?_append]
  rfl

theorem sliceTo?_append : sliceTo? (byteLength front) (front ++ back) = some front := by
  rw [sliceTo?, splitAt?_append]
  rfl

theorem slice?_append : slice? (byteLength front) (byteLength front + byteLength middle) (front ++ middle ++ back) =
      some middle := by
  rw [slice?, ← byteLength_append, sliceTo?_append, Option.bind_some, sliceFrom?_append]

end Parts

section Known

variable {text front middle back : Text} {first last : Nat}

theorem sliceFrom?_of_eq (split : text = front ++ back) (isFirst : byteLength front = first) :
    sliceFrom? first text = some back := by
  rw [split, ← isFirst, sliceFrom?_append]

theorem sliceTo?_of_eq (split : text = front ++ back) (isLast : byteLength front = last) :
    sliceTo? last text = some front := by
  rw [split, ← isLast, sliceTo?_append]

theorem slice?_of_eq (split : text = front ++ middle ++ back) (isFirst : byteLength front = first)
    (isLast : byteLength front + byteLength middle = last) : slice? first last text = some middle := by
  rw [split, ← isFirst, ← isLast, slice?_append]

end Known

/-- A text is split into what it is put together of. -/
theorem splitAt?_eq_some_iff {text front back : Text} :
    splitAt? position text = some (front, back) ↔ text = front ++ back ∧ byteLength front = position := by
  constructor
  · intro found
    fun_induction splitAt? position text generalizing front with
    | case1 text =>
      cases found
      exact ⟨rfl, rfl⟩
    | case2 position => cases found
    | case3 position char rest fits ih =>
      obtain ⟨⟨first, last⟩, later, same⟩ := Option.map_eq_some_iff.mp found
      cases same
      obtain ⟨rfl, isPosition⟩ := ih later
      refine ⟨rfl, ?_⟩
      rw [byteLength_cons, isPosition]
      omega
    | case4 position char rest tooLong => cases found
  · rintro ⟨rfl, rfl⟩
    exact splitAt?_append front back

theorem isSome_splitAt?_iff : (splitAt? position text).isSome = true ↔ IsCharBoundary position text := by
  rw [Option.isSome_iff_exists]
  constructor
  · rintro ⟨⟨front, back⟩, found⟩
    exact ⟨front, back, splitAt?_eq_some_iff.mp found⟩
  · rintro ⟨front, back, split⟩
    exact ⟨(front, back), splitAt?_eq_some_iff.mpr split⟩

theorem isSome_sliceFrom?_iff : (sliceFrom? position text).isSome = true ↔ IsCharBoundary position text := by
  rw [sliceFrom?, Option.isSome_map, isSome_splitAt?_iff]

/-! ## Searching -/

/-- What is found stands behind as many bytes as its position says. -/
theorem eq_of_find {pattern text : Text} (found : find pattern text = some position) :
    ∃ front back, text = front ++ pattern ++ back ∧ byteLength front = position ∧
      before? pattern text = some front := by
  obtain ⟨front, isFront, rfl⟩ := Option.map_eq_some_iff.mp found
  obtain ⟨back, split⟩ := prefix_of_before? isFront
  exact ⟨front, back, split.symm, rfl, isFront⟩

/-- A pattern that occurs is found there or before. -/
theorem exists_before? (pattern front back : Text) :
    ∃ first, before? pattern (front ++ pattern ++ back) = some first ∧ first <+: front := by
  induction front with
  | nil =>
    refine ⟨[], ?_, List.nil_prefix⟩
    cases pattern with
    | nil => cases back <;> simp [before?]
    | cons head rest => exact before?_match rest head
  | cons char front ih =>
    rw [List.cons_append, List.cons_append, before?]
    split
    · exact ⟨[], rfl, List.nil_prefix⟩
    · obtain ⟨first, isFirst, before⟩ := ih
      exact ⟨char :: first, by rw [isFirst]; rfl, List.cons_prefix_cons.mpr ⟨rfl, before⟩⟩

/-- `str::find` finds the first place of a pattern. -/
theorem find_eq_some_iff {pattern text : Text} :
    find pattern text = some position ↔ IsFirst pattern position text := by
  have least : ∀ first front back : Text, before? pattern (front ++ pattern ++ back) = some first →
      byteLength first ≤ byteLength front := by
    intro first front back found
    obtain ⟨other, isOther, before⟩ := exists_before? pattern front back
    obtain rfl := Option.some.inj (isOther.symm.trans found)
    obtain ⟨between, rfl⟩ := before
    rw [byteLength_append]
    exact Nat.le_add_right _ _
  constructor
  · intro found
    obtain ⟨first, back, split, rfl, isFirst⟩ := eq_of_find found
    exact ⟨⟨first, back, split, rfl⟩, fun front behind other => least first front behind (other ▸ isFirst)⟩
  · rintro ⟨⟨front, back, rfl, rfl⟩, minimal⟩
    obtain ⟨first, isFirst, -⟩ := exists_before? pattern front back
    obtain ⟨behind, split⟩ := prefix_of_before? isFirst
    have same := Nat.le_antisymm (least first front back isFirst) (minimal first behind split.symm)
    rw [find, isFirst, Option.map_some, same]

theorem find_eq_none_iff {pattern text : Text} : find pattern text = none ↔ ¬ pattern <:+: text := by
  rw [find, Option.map_eq_none_iff, before?_eq_none_iff]

/-- A character is found behind what does not hold it. -/
theorem find_char {front : Text} (absent : mark ∉ front) (back : Text) :
    find [mark] (front ++ mark :: back) = some (byteLength front) := by
  have here := @before?_match back [] mark
  rw [List.nil_append] at here
  rw [find, before?_append absent, here, Option.map_some, Option.map_some, List.append_nil]

theorem find_char_eq_none (absent : mark ∉ text) : find [mark] text = none := by
  rw [find, before?_eq_none absent, Option.map_none]

/-- A text with a character is cut at the first one. -/
theorem exists_first (mem : mark ∈ text) : ∃ front back, text = front ++ mark :: back ∧ mark ∉ front := by
  obtain ⟨front, back, split, absent⟩ := List.eq_append_cons_of_mem mem
  exact ⟨front, back, split, absent⟩

/-- A text with a character is cut at the last one. -/
theorem exists_last (mem : mark ∈ text) : ∃ front back, text = front ++ mark :: back ∧ mark ∉ back := by
  obtain ⟨back, front, split, absent⟩ := exists_first (List.mem_reverse.mpr mem)
  refine ⟨front.reverse, back.reverse, ?_, mt List.mem_reverse.mp absent⟩
  rw [← List.reverse_reverse text, split, List.reverse_append, List.reverse_cons, List.append_assoc]
  rfl

/-- The last of a character is found before what does not hold it. -/
theorem rfind_append {back : Text} (absent : mark ∉ back) (front : Text) :
    rfind mark (front ++ mark :: back) = some (byteLength front) := by
  have plain : ∀ char ∈ back, decide (char ≠ mark) = true := fun char mem =>
    decide_eq_true fun same => absent (same ▸ mem)
  rw [rfind, if_pos (List.mem_append_right _ List.mem_cons_self),
    rdropWhile_append_cons (by simp) plain, List.dropLast_concat]

/-! ## Bytes -/

theorem sliceBytes?_of_le {first last : Nat} {bytes : List UInt8} (ordered : first ≤ last)
    (inside : last ≤ bytes.length) :
    sliceBytes? first last bytes = some ((bytes.drop first).take (last - first)) := by
  rw [sliceBytes?, if_pos ⟨ordered, inside⟩, List.drop_take]

end TutaBridge.Std.Text
