import Mathlib.Algebra.Group.Int.Defs
import Mathlib.Algebra.Group.Nat.Defs
import Mathlib.Data.List.DropRight

/-!
# Text

The string operations a line-based protocol is parsed with, over the characters
of a string: splitting, trimming and numbers in decimal. Numbers follow `str::parse`: a sign, one
digit at least, and an error when the value does not fit the width.
-/

namespace TutaBridge.Std

/-- The characters of a `str`. -/
abbrev Text := List Char

/-- What holds of the characters of a text is decided along the text, not over all of `char`. -/
instance (priority := 1100) decidableForallMem {α : Type} (elements : List α) (holds : α → Prop)
    [DecidablePred holds] : Decidable (∀ element ∈ elements, holds element) :=
  List.decidableBAll holds elements

namespace Text

/-- `str::split_once`: what stands before and after the first separator. -/
def splitOnce (separator : Char) : Text → Option (Text × Text)
  | [] => none
  | head :: rest =>
    if head = separator then some ([], rest)
    else (splitOnce separator rest).map fun parts => (head :: parts.1, parts.2)

/-- `char::is_whitespace`, the characters with Unicode's `White_Space`. -/
def isWhitespace (char : Char) : Bool :=
  let code := char.toNat
  (9 ≤ code && code ≤ 13) || code == 0x20 || code == 0x85 || code == 0xA0 || code == 0x1680 ||
    (0x2000 ≤ code && code ≤ 0x200A) || code == 0x2028 || code == 0x2029 || code == 0x202F ||
    code == 0x205F || code == 0x3000

/-- `str::trim`. -/
def trim (text : Text) : Text := (text.dropWhile isWhitespace).rdropWhile isWhitespace

/-- `str::trim_start`. -/
def trimStart (text : Text) : Text := text.dropWhile isWhitespace

/-- `str::trim_end`. -/
def trimEnd (text : Text) : Text := text.rdropWhile isWhitespace

/-- `str::trim_matches` with one character. -/
def trimMatches (pattern : Char) (text : Text) : Text :=
  (text.dropWhile (· = pattern)).rdropWhile (· = pattern)

/-- `str::eq_ignore_ascii_case`. -/
def eqIgnoreAsciiCase (left right : Text) : Bool :=
  left.map Char.toLower = right.map Char.toLower

/-- `str::split_whitespace`. -/
def words (text : Text) : List Text := (text.splitOnP isWhitespace).filter (· ≠ [])

/-- What a `splitn(3, ' ')` puts before the third piece, if there is one. -/
def opening (text : Text) : Option (Text × Text) :=
  (splitOnce ' ' text).bind fun parts =>
    (splitOnce ' ' parts.2).map fun later => (parts.1, later.1)

/-- A line without the carriage return before its line feed. -/
def stripReturn (line : Text) : Text := if line.getLast? = some '\r' then line.dropLast else line

/-- `str::lines`, with what was read of the current line. -/
def linesFrom (current : Text) : Text → List Text
  | [] => if current = [] then [] else [current]
  | char :: rest =>
    if char = '\n' then stripReturn current :: linesFrom [] rest
    else linesFrom (current ++ [char]) rest

/-- `str::lines`. -/
def lines (text : Text) : List Text := linesFrom [] text

/-- What stands before the first occurrence of the pattern, as `str::find` finds it. -/
def before? (pattern : Text) : Text → Option Text
  | [] => if pattern = [] then some [] else none
  | char :: rest =>
    if pattern.isPrefixOf (char :: rest) then some []
    else (before? pattern rest).map (char :: ·)

/-- The value of a text that is all digits and not empty. -/
def digits? (text : Text) : Option Nat :=
  if text ≠ [] ∧ text.all Char.isDigit then some (Nat.ofDigitChars 10 text 0) else none

/-- `str::parse` to an unsigned number of the width. -/
def parseUnsigned (bits : Nat) (text : Text) : Option Nat :=
  let digits := match text with
    | '+' :: rest => rest
    | _ => text
  (digits? digits).filter (· < 2 ^ bits)

/-- `str::parse` to a signed number of the width. -/
def parseSigned (bits : Nat) (text : Text) : Option Int :=
  let value : Option Int := match text with
    | '+' :: rest => (digits? rest).map Int.ofNat
    | '-' :: rest => (digits? rest).map fun value => -(value : Int)
    | _ => (digits? text).map Int.ofNat
  value.filter fun value => -2 ^ (bits - 1) ≤ value ∧ value < 2 ^ (bits - 1)

/-- A number in decimal. -/
def decimal (value : Nat) : Text := Nat.toDigits 10 value

/-- A number in decimal with leading zeros up to the width. -/
def padded (width value : Nat) : Text := (decimal value).leftpad width '0'

/-! ## Splitting -/

/-- The longest end that meets a condition stops at the last item that does not. -/
theorem rtakeWhile_append_cons {α : Type} {keep : α → Bool} {before after : List α} {stop : α}
    (stops : keep stop = false) (kept : ∀ item ∈ after, keep item = true) :
    (before ++ stop :: after).rtakeWhile keep = after := by
  have keptReversed : ∀ item ∈ after.reverse, keep item = true := fun item mem =>
    kept item (List.mem_reverse.mp mem)
  rw [List.rtakeWhile, List.reverse_append, List.reverse_cons, List.append_assoc,
    List.takeWhile_append_of_pos keptReversed, List.singleton_append,
    List.takeWhile_cons_of_neg (by simp [stops]), List.append_nil, List.reverse_reverse]

/-- The longest end that meets a condition is dropped up to the last item that does not. -/
theorem rdropWhile_append_cons {α : Type} {drop : α → Bool} {before after : List α} {stop : α}
    (stops : drop stop = false) (dropped : ∀ item ∈ after, drop item = true) :
    (before ++ stop :: after).rdropWhile drop = before ++ [stop] := by
  have droppedReversed : ∀ item ∈ after.reverse, drop item = true := fun item mem =>
    dropped item (List.mem_reverse.mp mem)
  rw [List.rdropWhile, List.reverse_append, List.reverse_cons, List.append_assoc,
    List.dropWhile_append_of_pos droppedReversed, List.singleton_append,
    List.dropWhile_cons_of_neg (by simp [stops]), List.reverse_cons, List.reverse_reverse]

theorem splitOnce_eq_none {separator : Char} {text : Text} (absent : separator ∉ text) :
    splitOnce separator text = none := by
  induction text with
  | nil => rfl
  | cons head rest ih =>
    obtain ⟨different, later⟩ := not_or.mp (mt List.mem_cons.mpr absent)
    rw [splitOnce, if_neg (Ne.symm different), ih later, Option.map_none]

theorem splitOnce_append {separator : Char} {first second : Text} (absent : separator ∉ first) :
    splitOnce separator (first ++ separator :: second) = some (first, second) := by
  induction first with
  | nil => simp [splitOnce]
  | cons head rest ih =>
    obtain ⟨different, later⟩ := not_or.mp (mt List.mem_cons.mpr absent)
    rw [List.cons_append, splitOnce, if_neg (Ne.symm different), ih later]
    rfl

theorem eq_of_splitOnce {separator : Char} {text first second : Text}
    (found : splitOnce separator text = some (first, second)) :
    separator ∉ first ∧ text = first ++ separator :: second := by
  induction text generalizing first with
  | nil => cases found
  | cons head rest ih =>
    rw [splitOnce] at found
    split at found
    next isSeparator =>
      cases found
      exact ⟨List.not_mem_nil, by rw [isSeparator, List.nil_append]⟩
    next different =>
      obtain ⟨⟨before, after⟩, later, same⟩ := Option.map_eq_some_iff.mp found
      cases same
      obtain ⟨absent, rfl⟩ := ih later
      exact ⟨fun mem => (List.mem_cons.mp mem).elim (fun same => different same.symm) absent,
        rfl⟩

/-- A text that has an opening is cut by its first two blanks. -/
theorem opening_eq_some_iff {text first second : Text} : opening text = some (first, second) ↔
      ' ' ∉ first ∧ ' ' ∉ second ∧ ∃ rest, text = first ++ ' ' :: (second ++ ' ' :: rest) := by
  constructor
  · intro found
    obtain ⟨⟨one, behind⟩, cut, found⟩ := Option.bind_eq_some_iff.mp found
    obtain ⟨⟨two, rest⟩, cutAgain, same⟩ := Option.map_eq_some_iff.mp found
    cases same
    obtain ⟨firstSolid, isText⟩ := eq_of_splitOnce cut
    obtain ⟨secondSolid, isBehind⟩ := eq_of_splitOnce cutAgain
    exact ⟨firstSolid, secondSolid, rest, by rw [isText, ← isBehind]⟩
  · rintro ⟨firstSolid, secondSolid, rest, rfl⟩
    rw [opening, splitOnce_append firstSolid, Option.bind_some, splitOnce_append secondSolid]
    rfl

theorem trimEnd_append {first second : Text} {last : Char} (visible : isWhitespace last = false) :
    trimEnd (first ++ last :: second) = first ++ last :: trimEnd second := by
  induction second using List.reverseRecOn with
  | nil =>
    rw [trimEnd, List.rdropWhile_concat_neg _ _ _ (by simp [visible])]
    rfl
  | append_singleton second char ih =>
    have regroup : first ++ last :: (second ++ [char]) = (first ++ last :: second) ++ [char] := by
      simp
    rw [regroup, trimEnd, trimEnd, List.rdropWhile_concat, List.rdropWhile_concat]
    split
    · exact ih
    · rw [List.append_assoc, List.cons_append]

theorem trim_cons {head : Char} {rest : Text} (visible : isWhitespace head = false) :
    trim (head :: rest) = head :: trimEnd rest := by
  rw [trim, List.dropWhile_cons_of_neg (by simp [visible])]
  exact @trimEnd_append [] rest head visible

theorem trimStart_cons {head : Char} {rest : Text} (visible : isWhitespace head = false) :
    trimStart (head :: rest) = head :: rest :=
  List.dropWhile_cons_of_neg (by simp [visible])

theorem trimMatches_eq_self {mark : Char} {text : Text} (absent : mark ∉ text) : trimMatches mark text = text := by
  have leading : text.dropWhile (· = mark) = text := by
    cases text with
    | nil => rfl
    | cons head rest =>
      exact List.dropWhile_cons_of_neg (by simpa using Ne.symm (List.ne_of_not_mem_cons absent))
  rw [trimMatches, leading, List.rdropWhile_eq_self_iff]
  intro notEmpty
  simp only [decide_eq_true_eq]
  exact fun same => absent (same ▸ List.getLast_mem notEmpty)

theorem trimMatches_quoted {pattern : Char} {text : Text} (absent : pattern ∉ text) :
    trimMatches pattern (pattern :: text ++ [pattern]) = text := by
  have noneLeading : (text ++ [pattern]).dropWhile (· = pattern) = text ++ [pattern] ∨ text = [] := by
    cases text with
    | nil => exact .inr rfl
    | cons head rest =>
      refine .inl (List.dropWhile_cons_of_neg ?_)
      simpa using Ne.symm (List.ne_of_not_mem_cons absent)
  have noneTrailing : text.rdropWhile (· = pattern) = text := by
    rw [List.rdropWhile_eq_self_iff]
    intro notEmpty
    have isLast := List.getLast_mem notEmpty
    simp only [decide_eq_true_eq]
    exact fun same => absent (same ▸ isLast)
  rw [trimMatches, List.cons_append, List.dropWhile_cons_of_pos (by simp)]
  rcases noneLeading with same | rfl
  · rw [same, List.rdropWhile_concat_pos _ _ _ (by simp), noneTrailing]
  · simp

/-- A text keeps its edges where they are not to be dropped. -/
theorem dropWhile_rdropWhile_eq_self_iff {drop : Char → Bool} {text : Text} :
    (text.dropWhile drop).rdropWhile drop = text ↔
      (∀ char ∈ text.head?, drop char = false) ∧ ∀ char ∈ text.getLast?, drop char = false := by
  constructor
  · intro same
    have inner : text.dropWhile drop = text := by
      refine (List.dropWhile_sublist _).eq_of_length_le ?_
      calc text.length = ((text.dropWhile drop).rdropWhile drop).length := by rw [same]
        _ ≤ (text.dropWhile drop).length := (List.rdropWhile_prefix _ _).length_le
    rw [inner, List.rdropWhile_eq_self_iff] at same
    constructor
    · rintro char first
      obtain ⟨rest, rfl⟩ := List.head?_eq_some_iff.mp first
      simpa using List.dropWhile_eq_self_iff.mp inner (Nat.succ_pos _)
    · rintro char last
      obtain ⟨before, rfl⟩ := List.getLast?_eq_some_iff.mp last
      simpa using same (List.concat_ne_nil char before)
  · rintro ⟨first, last⟩
    have inner : text.dropWhile drop = text := by
      cases text with
      | nil => rfl
      | cons char rest =>
        rw [List.dropWhile_cons_of_neg (by simp [first char rfl])]
    rw [inner, List.rdropWhile_eq_self_iff]
    intro notEmpty
    simp [last _ (List.getLast?_eq_some_getLast notEmpty)]

/-- A text is its own trimming where it shows at both ends. -/
theorem trim_eq_self_iff {text : Text} : trim text = text ↔ (∀ char ∈ text.head?, isWhitespace char = false) ∧
      ∀ char ∈ text.getLast?, isWhitespace char = false :=
  dropWhile_rdropWhile_eq_self_iff

/-- A text without blanks is its own trimming. -/
theorem trim_eq_self {text : Text} (solid : ∀ char ∈ text, isWhitespace char = false) : trim text = text :=
  trim_eq_self_iff.mpr ⟨fun char first => solid char (List.mem_of_head? first),
    fun char last => solid char (List.mem_of_getLast? last)⟩

theorem trimEnd_trimEnd (text : Text) : trimEnd (trimEnd text) = trimEnd text :=
  List.rdropWhile_idempotent _ _

/-- A text that is trimmed at its end does not end in white space. -/
theorem visible_of_trimEnd {text : Text} {last : Char} (trimmed : trimEnd (text ++ [last]) = text ++ [last]) :
    isWhitespace last = false := by
  have notBlank := List.rdropWhile_eq_self_iff.mp trimmed (List.concat_ne_nil last text)
  rw [List.getLast_concat] at notBlank
  simpa using notBlank

/-! ## Trimming -/

section Trimming

variable {text blanks : Text}

section

variable (blank : ∀ char ∈ blanks, isWhitespace char = true)

include blank

theorem trim_append_left : trim (blanks ++ text) = trim text := by
  rw [trim, List.dropWhile_append_of_pos blank, trim]

theorem trimEnd_append_right : trimEnd (text ++ blanks) = trimEnd text := by
  have blankReversed : ∀ char ∈ blanks.reverse, isWhitespace char = true := fun char mem =>
    blank char (List.mem_reverse.mp mem)
  rw [trimEnd, List.rdropWhile, List.reverse_append, List.dropWhile_append_of_pos blankReversed]
  rfl

theorem trim_append_right : trim (text ++ blanks) = trim text := by
  rw [trim, List.dropWhile_append]
  split
  next allBlank =>
    rw [List.isEmpty_iff] at allBlank
    rw [List.dropWhile_eq_nil_iff.mpr blank, trim, allBlank]
  next => exact trimEnd_append_right blank

end

/-- What trimming takes away is white space. -/
theorem trim_parts (text : Text) : ∃ before after, (∀ char ∈ before, isWhitespace char = true) ∧
      (∀ char ∈ after, isWhitespace char = true) ∧ text = before ++ trim text ++ after := by
  refine ⟨text.takeWhile isWhitespace, (trimStart text).rtakeWhile isWhitespace, ?_, ?_, ?_⟩
  · exact fun char mem => List.mem_takeWhile_imp mem
  · intro char mem
    exact List.mem_takeWhile_imp (List.mem_reverse.mp mem)
  · have cut : trimEnd (trimStart text) ++ (trimStart text).rtakeWhile isWhitespace = trimStart text := by
      rw [trimEnd, List.rdropWhile, List.rtakeWhile, ← List.reverse_append,
        List.takeWhile_append_dropWhile, List.reverse_reverse]
    rw [List.append_assoc]
    have isTrim : trim text = trimEnd (trimStart text) := rfl
    rw [isTrim, cut]
    exact List.takeWhile_append_dropWhile.symm

theorem trim_trim (text : Text) : trim (trim text) = trim text := by
  obtain ⟨before, after, blankBefore, blankAfter, split⟩ := trim_parts text
  conv_rhs => rw [split, trim_append_right blankAfter, trim_append_left blankBefore]

/-- What begins and ends with something visible is trimmed only at what stands before it. -/
theorem trim_append_enclosed {first last : Char} (visibleFirst : isWhitespace first = false)
    (visibleLast : isWhitespace last = false) (before text : Text) :
    trim (before ++ first :: (text ++ [last])) = trimStart before ++ first :: (text ++ [last]) := by
  have tail := @trimEnd_append (first :: text) [] last visibleLast
  rw [trim, List.dropWhile_append]
  split
  next allBlank =>
    rw [List.isEmpty_iff] at allBlank
    rw [trimStart, allBlank, List.dropWhile_cons_of_neg (by simp [visibleFirst])]
    exact tail
  next =>
    have ends := @trimEnd_append (before.dropWhile isWhitespace ++ first :: text) [] last visibleLast
    simpa [trimStart, trimEnd] using ends

theorem trim_trimStart (text : Text) : trim (trimStart text) = trim text := by
  have cut : text = text.takeWhile isWhitespace ++ trimStart text :=
    List.takeWhile_append_dropWhile.symm
  have same := @trim_append_left (trimStart text) (text.takeWhile isWhitespace)
    fun char mem => List.mem_takeWhile_imp mem
  rw [← cut] at same
  exact same.symm

end Trimming
/-! ## Words -/

/-- A blank between two texts parts their words. -/
theorem words_append_cons {blank : Char} (isBlank : isWhitespace blank = true) (first second : Text) :
    words (first ++ blank :: second) = words first ++ words second := by
  rw [words, words, words, List.splitOnP_append_cons first second isBlank, List.filter_append]

/-- A piece has none of the characters that the text was split at. -/
theorem of_mem_splitOnP {split : Char → Bool} {text piece : Text} (mem : piece ∈ text.splitOnP split) :
    ∀ char ∈ piece, split char = false ∧ char ∈ text := by
  induction text generalizing piece with
  | nil =>
    rw [List.splitOnP_nil, List.mem_singleton] at mem
    subst mem
    exact List.forall_mem_nil _
  | cons head rest ih =>
    obtain ⟨first, later, isSplit⟩ := List.exists_cons_of_ne_nil (List.splitOnP_ne_nil split rest)
    rw [List.splitOnP_cons_eq_if_modifyHead] at mem
    have weaken : ∀ piece ∈ rest.splitOnP split, ∀ char ∈ piece, split char = false ∧ char ∈ head :: rest :=
      fun piece mem char inPiece => (ih mem char inPiece).imp_right (List.mem_cons_of_mem head)
    split at mem
    next isSeparator =>
      rcases List.mem_cons.mp mem with rfl | inRest
      · exact List.forall_mem_nil _
      · exact weaken piece inRest
    next noSeparator =>
      rw [isSplit, List.modifyHead_cons] at mem
      rw [isSplit] at weaken
      rcases List.mem_cons.mp mem with rfl | inRest
      · exact List.forall_mem_cons.mpr ⟨⟨by simpa using noSeparator, List.mem_cons_self⟩,
          weaken first List.mem_cons_self⟩
      · exact weaken piece (List.mem_cons_of_mem _ inRest)

/-- A text with a character that is no white space has a word. -/
theorem words_ne_nil {text : Text} {char : Char} (mem : char ∈ text)
    (visible : isWhitespace char = false) : words text ≠ [] := by
  induction text with
  | nil => cases mem
  | cons head rest ih =>
    cases isBlank : isWhitespace head with
    | true =>
      rw [← List.nil_append (head :: rest), words_append_cons isBlank, words, List.splitOnP_nil]
      refine ih ((List.mem_cons.mp mem).resolve_left ?_)
      rintro rfl
      rw [visible] at isBlank
      cases isBlank
    | false =>
      obtain ⟨word, later, split⟩ :=
        List.exists_cons_of_ne_nil (List.splitOnP_ne_nil isWhitespace rest)
      rw [words, List.splitOnP_cons_eq_if_modifyHead, isBlank, split]
      simp

/-- A trimmed text with an opening has a word behind it. -/
theorem words_of_opening {text first second : Text} (opens : opening text = some (first, second))
    (trimmed : trimEnd text = text) : ∃ later, later ≠ [] ∧ words text = words first ++ words second ++ later := by
  obtain ⟨-, -, rest, rfl⟩ := opening_eq_some_iff.mp opens
  refine ⟨words rest, ?_, ?_⟩
  · rcases List.eq_nil_or_concat' rest with rfl | ⟨body, last, rfl⟩
    · have visible := @visible_of_trimEnd (first ++ ' ' :: second) ' ' (by simpa using trimmed)
      exact absurd visible (by decide)
    · have visible := @visible_of_trimEnd (first ++ ' ' :: (second ++ ' ' :: body)) last
        (by simpa using trimmed)
      exact words_ne_nil (List.mem_append_right _ List.mem_cons_self) visible
  · rw [words_append_cons (by decide), words_append_cons (by decide), List.append_assoc]

theorem words_single {first second : Text} {char : Char} (single : words [char] = [[char]]) :
    words (first ++ ' ' :: (second ++ [' ', char])) = words first ++ words second ++ [[char]] := by
  rw [words_append_cons (by decide), words_append_cons (by decide), single, List.append_assoc]

/-- What is joined with a separator holds nothing else. -/
theorem mem_intercalate {separator char : Char} {parts : List Text} (mem : char ∈ [separator].intercalate parts) :
    char = separator ∨ ∃ part ∈ parts, char ∈ part := by
  induction parts with
  | nil => simp at mem
  | cons part rest ih =>
    cases rest with
    | nil => exact .inr ⟨part, List.mem_cons_self, by simpa using mem⟩
    | cons next rest =>
      rw [List.intercalate_cons_cons, List.mem_append, List.mem_append, List.mem_singleton] at mem
      rcases mem with (inPart | isSeparator) | later
      · exact .inr ⟨part, List.mem_cons_self, inPart⟩
      · exact .inl isSeparator
      · rcases ih later with isSeparator | ⟨other, inRest, inOther⟩
        · exact .inl isSeparator
        · exact .inr ⟨other, List.mem_cons_of_mem _ inRest, inOther⟩

/-! ## Numbers -/

theorem isDigit_of_mem_decimal {value : Nat} {char : Char} (mem : char ∈ decimal value) : char.isDigit = true :=
  Nat.isDigit_of_mem_toDigits (by decide) (by decide) mem

theorem decimal_ne_nil (value : Nat) : decimal value ≠ [] := Nat.toDigits_ne_nil

/-- A character that is no digit does not occur in a number. -/
theorem not_mem_decimal {value : Nat} {char : Char} (noDigit : char.isDigit = false) : char ∉ decimal value := by
  intro mem
  rw [isDigit_of_mem_decimal mem] at noDigit
  cases noDigit

theorem mem_padded {width value : Nat} {char : Char} (mem : char ∈ padded width value) : char.isDigit = true := by
  rcases List.mem_append.mp mem with zero | digit
  · rw [List.eq_of_mem_replicate zero]
    decide
  · exact isDigit_of_mem_decimal digit

theorem digits?_decimal (value : Nat) : digits? (decimal value) = some value := by
  have allDigits : (decimal value).all Char.isDigit := by
    rw [List.all_eq_true]
    exact fun char mem => isDigit_of_mem_decimal mem
  rw [digits?, if_pos ⟨decimal_ne_nil value, allDigits⟩, decimal, Nat.ofDigitChars_ten_toDigits]

/-- Leading zeros do not change the value. -/
theorem ofDigitChars_zeros (count : Nat) (text : Text) :
    Nat.ofDigitChars 10 (List.replicate count '0' ++ text) 0 = Nat.ofDigitChars 10 text 0 := by
  induction count with
  | zero => rfl
  | succ count ih =>
    rw [List.replicate_succ, List.cons_append, Nat.ofDigitChars_cons]
    exact ih

theorem digits?_padded (width value : Nat) : digits? (padded width value) = some value := by
  have allDigits : (padded width value).all Char.isDigit := by
    rw [List.all_eq_true]
    exact fun char mem => mem_padded mem
  have notEmpty : padded width value ≠ [] := by simp [padded, List.leftpad, decimal_ne_nil]
  rw [digits?, if_pos ⟨notEmpty, allDigits⟩, padded, List.leftpad, ofDigitChars_zeros, decimal,
    Nat.ofDigitChars_ten_toDigits]

/-- A text of digits has no sign to read. -/
theorem parseUnsigned_of_digits {bits value : Nat} {text : Text}
    (allDigits : ∀ char ∈ text, char.isDigit = true) (reads : digits? text = some value)
    (fits : value < 2 ^ bits) : parseUnsigned bits text = some value := by
  unfold parseUnsigned
  split
  next rest => exact absurd (allDigits '+' List.mem_cons_self) (by decide)
  next => simp [reads, fits]

theorem parseUnsigned_decimal {bits value : Nat} (fits : value < 2 ^ bits) :
    parseUnsigned bits (decimal value) = some value :=
  parseUnsigned_of_digits (fun _ => isDigit_of_mem_decimal) (digits?_decimal value) fits

theorem parseSigned_of_digits {bits value : Nat} {text : Text}
    (allDigits : ∀ char ∈ text, char.isDigit = true) (reads : digits? text = some value)
    (fits : value < 2 ^ (bits - 1)) : parseSigned bits text = some (value : Int) := by
  have above : -(2 : Int) ^ (bits - 1) ≤ (value : Int) := by
    have positive : (0 : Int) < 2 ^ (bits - 1) := Int.pow_pos (by decide)
    omega
  have below : (value : Int) < 2 ^ (bits - 1) := by exact_mod_cast fits
  unfold parseSigned
  split
  next rest => exact absurd (allDigits '+' List.mem_cons_self) (by decide)
  next rest => exact absurd (allDigits '-' List.mem_cons_self) (by decide)
  next => simp [reads, above, below]

/-- What is read from a number is the number. -/
theorem eq_of_parseUnsigned_decimal {bits value read : Nat}
    (reads : parseUnsigned bits (decimal value) = some read) : read = value := by
  unfold parseUnsigned at reads
  split at reads
  next rest same =>
    have digit := @isDigit_of_mem_decimal value '+' (same ▸ List.mem_cons_self)
    exact absurd digit (by decide)
  next =>
    dsimp only at reads
    rw [digits?_decimal, Option.filter_eq_some_iff] at reads
    exact (Option.some.inj reads.1).symm

/-! ## ASCII case -/

theorem forall_ascii {text : Text} {change : Char → Char}
    (ascii : text.all (fun char => (change char).toNat < 128) = true) : ∀ char ∈ text, (change char).toNat < 128 :=
  fun char mem => of_decide_eq_true (List.all_eq_true.mp ascii char mem)

/-- What holds of each of the ASCII characters holds of one. -/
theorem of_ascii {property : Char → Prop} (table : ∀ code < 128, property (Char.ofNat code))
    {char : Char} (ascii : char.toNat < 128) : property char := by
  have holds := table char.toNat ascii
  rwa [Char.ofNat_toNat] at holds

theorem toNat_of_isDigit {char : Char} (digit : char.isDigit = true) : 48 ≤ char.toNat ∧ char.toNat ≤ 57 := by
  simpa [Char.isDigit, UInt32.le_iff_toNat_le] using digit

theorem ascii_of_isAlphanum {char : Char} (letter : char.isAlphanum = true) : char.toNat < 128 := by
  change (decide ('A'.val ≤ char.val ∧ char.val ≤ 'Z'.val) ||
    (decide ('a'.val ≤ char.val) && decide (char.val ≤ 'z'.val)) ||
    (decide ('0'.val ≤ char.val) && decide (char.val ≤ '9'.val))) = true at letter
  simp only [Bool.or_eq_true, decide_eq_true_eq, Bool.and_eq_true, UInt32.le_iff_toNat_le] at letter
  have value : char.val.toNat = char.toNat := rfl
  simp at letter
  omega

/-- Lower case leaves what is beyond ASCII as it is. -/
theorem ascii_of_toLower {char : Char} (ascii : char.toLower.toNat < 128) : char.toNat < 128 := by
  by_cases upper : char.val ≥ 'A'.val ∧ char.val ≤ 'Z'.val
  · have small : char.val.toNat ≤ 90 := UInt32.le_iff_toNat_le.mp upper.2
    exact Nat.lt_of_le_of_lt small (by decide)
  · have same : char.toLower = char := dif_neg upper
    rwa [same] at ascii

theorem toUpper_toLower {char : Char} (ascii : char.toNat < 128) : char.toLower.toUpper = char.toUpper :=
  @of_ascii (fun char => char.toLower.toUpper = char.toUpper) (by decide) char ascii

/-- Lower case makes nothing but letters. -/
theorem eq_of_toLower {char mark : Char} (noLetter : mark.isLower = false) (ascii : mark.toNat < 128)
    (same : char.toLower = mark) : char = mark := by
  have kept := @of_ascii (fun char => char.toLower.isLower = false → char.toLower = char) (by decide)
    char (ascii_of_toLower (same ▸ ascii))
  rw [← kept (same ▸ noLetter), same]

end Text

/-- The case mappings of the standard library: of one character, and of a text
where the mapping looks at the neighbours. They are Unicode's, of which only the
ASCII part is fixed here. -/
structure Casing where
  upperChar : Char → Text
  toLowercase : Text → Text
  upperChar_ascii : ∀ char, char.toNat < 128 → upperChar char = [char.toUpper]
  toLowercase_ascii : ∀ text, (∀ char ∈ text, char.toNat < 128) → toLowercase text = text.map Char.toLower

namespace Casing

/-- `str::to_uppercase`. -/
def toUppercase (casing : Casing) (text : Text) : Text := text.flatMap casing.upperChar

theorem toUppercase_ascii (casing : Casing) {text : Text} (ascii : ∀ char ∈ text, char.toNat < 128) :
    casing.toUppercase text = text.map Char.toUpper := by
  induction text with
  | nil => rfl
  | cons head rest ih =>
    obtain ⟨first, later⟩ := List.forall_mem_cons.mp ascii
    rw [toUppercase, List.flatMap_cons, casing.upperChar_ascii head first]
    exact congrArg (head.toUpper :: ·) (ih later)

/-- Texts that differ in the case of ASCII letters are the same in capital letters. -/
theorem toUppercase_of_eqIgnoreAsciiCase (casing : Casing) {text name : Text}
    (same : Text.eqIgnoreAsciiCase text name = true) (ascii : ∀ char ∈ name, char.toLower.toNat < 128) :
    casing.toUppercase text = name.map Char.toUpper := by
  rw [Text.eqIgnoreAsciiCase, decide_eq_true_eq] at same
  have asciiText : ∀ char ∈ text, char.toNat < 128 := by
    intro char mem
    obtain ⟨other, inName, lower⟩ := List.mem_map.mp (same ▸ List.mem_map_of_mem mem)
    exact Text.ascii_of_toLower (lower ▸ ascii other inName)
  have upper : ∀ text : Text, (∀ char ∈ text, char.toNat < 128) →
      text.map Char.toUpper = (text.map Char.toLower).map Char.toUpper := by
    intro text ascii
    rw [List.map_map]
    exact List.map_congr_left fun char mem => (Text.toUpper_toLower (ascii char mem)).symm
  rw [casing.toUppercase_ascii asciiText, upper text asciiText, same,
    ← upper name fun char mem => Text.ascii_of_toLower (ascii char mem)]

/-- The mappings of a library that knows no case beyond ASCII. -/
def ascii : Casing where
  upperChar char := [char.toUpper]
  toLowercase text := text.map Char.toLower
  upperChar_ascii _ _ := rfl
  toLowercase_ascii _ _ := rfl

end Casing

end TutaBridge.Std
