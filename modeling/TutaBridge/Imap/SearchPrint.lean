import TutaBridge.Imap.Search
import TutaBridge.Std.Calendar

/-!
# SEARCH keys in print

A query as RFC 3501 writes it, and that the parser reads back what is printed.
The print is cut into tokens first: `tokenize` finds exactly those, and the
parser turns the tokens of a key into the key, up to the empty and the
one-element conjunctions that `foldAnd` has no use for.
-/

namespace TutaBridge.Imap

open TutaBridge.Std

variable {key : SearchKey} {char : Char} {rest : Text} {text : Text}

/-! ## The print -/

/-- A string argument in quotes, with quotes and backslashes escaped. -/
def escapeQuoted (text : Text) : Text :=
  text.flatMap fun char => if char = '"' ∨ char = '\\' then ['\\', char] else [char]

def printQuoted (text : Text) : Text := '"' :: (escapeQuoted text ++ ['"'])

/-- A range as a number, `*`, or two of these. It starts at 0 where a client wrote `*`. Nothing in the grammar
reads as a range that ends at 0, which is written with the digit. -/
def printRange : SeqRange → Text
  | ⟨start, none⟩ => if start = 0 then ['*'] else Text.decimal start.toNat ++ [':', '*']
  | ⟨start, some stop⟩ =>
    if start = stop then Text.decimal start.toNat
    else (if start = 0 then ['*'] else Text.decimal start.toNat) ++ ':' :: Text.decimal stop.toNat

def printSeqset (set : SeqSet) : Text := [','].intercalate (set.ranges.map printRange)

/-- The months as RFC 3501 spells them. -/
def monthSpellings : List Text :=
  ["Jan".toList, "Feb".toList, "Mar".toList, "Apr".toList, "May".toList, "Jun".toList,
    "Jul".toList, "Aug".toList, "Sep".toList, "Oct".toList, "Nov".toList, "Dec".toList]

/-- `d-Mon-yyyy`. -/
def printDate (day : Int) : Text :=
  let date := CivilDate.ofDay day
  Text.decimal date.day.toNat ++ '-' ::
    (monthSpellings.getD (date.month - 1).toNat [] ++ '-' :: Text.padded 4 date.year.toNat)

/-- The flag `KEYWORD` and `UNKEYWORD` ask for, which no message has. -/
def anyFlag : Text := "x".toList

/-- The word and the printed arguments of a key that holds no other key. -/
def SearchKey.words : SearchKey → List Token
  | .all => [.atom Keyword.all.name]
  | .seen => [.atom Keyword.seen.name]
  | .unseen => [.atom Keyword.unseen.name]
  | .answered => [.atom Keyword.answered.name]
  | .unanswered => [.atom Keyword.unanswered.name]
  | .flagged => [.atom Keyword.flagged.name]
  | .unflagged => [.atom Keyword.unflagged.name]
  | .draft => [.atom Keyword.draft.name]
  | .undraft => [.atom Keyword.undraft.name]
  | .deleted => [.atom Keyword.deleted.name]
  | .undeleted => [.atom Keyword.undeleted.name]
  | .recent => [.atom Keyword.recent.name]
  | .new => [.atom Keyword.new.name]
  | .old => [.atom Keyword.old.name]
  | .keyword => [.atom Keyword.keyword.name, .atom anyFlag]
  | .unkeyword => [.atom Keyword.unkeyword.name, .atom anyFlag]
  | .subject value => [.atom Keyword.subject.name, .quoted value]
  | .from value => [.atom Keyword.sender.name, .quoted value]
  | .to value => [.atom Keyword.recipient.name, .quoted value]
  | .cc value => [.atom Keyword.cc.name, .quoted value]
  | .bcc value => [.atom Keyword.bcc.name, .quoted value]
  | .body value => [.atom Keyword.body.name, .quoted value]
  | .text value => [.atom Keyword.text.name, .quoted value]
  | .header name value => [.atom Keyword.header.name, .quoted name, .quoted value]
  | .before day => [.atom Keyword.before.name, .atom (printDate day)]
  | .on day => [.atom Keyword.onDay.name, .atom (printDate day)]
  | .since day => [.atom Keyword.since.name, .atom (printDate day)]
  | .sentBefore day => [.atom Keyword.sentBefore.name, .atom (printDate day)]
  | .sentOn day => [.atom Keyword.sentOn.name, .atom (printDate day)]
  | .sentSince day => [.atom Keyword.sentSince.name, .atom (printDate day)]
  | .larger size => [.atom Keyword.larger.name, .atom (Text.decimal size.toNat)]
  | .smaller size => [.atom Keyword.smaller.name, .atom (Text.decimal size.toNat)]
  | .uid set => [.atom Keyword.uid.name, .atom (printSeqset set)]
  | .sequence set => [.atom (printSeqset set)]
  | .and _ | .or _ _ | .not _ => []

/-- A token as it is written. -/
def Token.print : Token → Text
  | .lparen => ['(']
  | .rparen => [')']
  | .atom text => text
  | .quoted text => printQuoted text

/-- Words with a space between them. -/
def printWords (words : List Token) : Text := [' '].intercalate (words.map Token.print)

mutual

/-- The key as a client sends it. -/
def printKey : SearchKey → Text
  | .and keys => '(' :: (printKeys keys ++ [')'])
  | .or left right => Keyword.or.name ++ ' ' :: (printKey left ++ ' ' :: printKey right)
  | .not key => Keyword.not.name ++ ' ' :: printKey key
  | key => printWords key.words

/-- The keys of a list with a space between them. -/
def printKeys : List SearchKey → Text
  | [] => []
  | [key] => printKey key
  | key :: rest => printKey key ++ ' ' :: printKeys rest

end

mutual

/-- The keys RFC 3501 can write: every date in a year of four digits, no set
without a range. -/
def Printable : SearchKey → Prop
  | .and keys => PrintableAll keys
  | .or left right => Printable left ∧ Printable right
  | .not key => Printable key
  | .before day | .on day | .since day | .sentBefore day | .sentOn day | .sentSince day =>
    0 ≤ (CivilDate.ofDay day).year ∧ (CivilDate.ofDay day).year ≤ 9999
  | .uid set | .sequence set => set.ranges ≠ []
  | _ => True

def PrintableAll : List SearchKey → Prop
  | [] => True
  | key :: rest => Printable key ∧ PrintableAll rest

end

/-! ## Induction over keys -/

/-- The keys that hold no other key. -/
def SearchKey.isLeaf : SearchKey → Bool
  | .and _ | .or _ _ | .not _ => false
  | _ => true

/-- Induction over the keys of a query, the leaves taken together. -/
theorem SearchKey.induction {P : SearchKey → Prop} (leaf : ∀ key, key.isLeaf = true → P key)
    (and : ∀ keys, (∀ key ∈ keys, P key) → P (.and keys)) (or : ∀ left right, P left → P right → P (.or left right))
    (not : ∀ key, P key → P (.not key)) (key : SearchKey) : P key := by
  apply @SearchKey.rec P fun keys => ∀ key ∈ keys, P key
  case and => exact and
  case or => exact or
  case not => exact not
  case nil => exact List.forall_mem_nil P
  case cons => exact fun key rest first later => List.forall_mem_cons.mpr ⟨first, later⟩
  all_goals
    intros
    exact leaf _ rfl

theorem printKey_leaf (leaf : key.isLeaf = true) : printKey key = printWords key.words := by
  cases key <;> first | rfl | cases leaf

theorem printableAll_iff (keys : List SearchKey) : PrintableAll keys ↔ ∀ key ∈ keys, Printable key := by
  induction keys with
  | nil => simp [PrintableAll]
  | cons key rest ih => simp [PrintableAll, ih]

/-! ## Words -/

theorem Keyword.mem_arms (word : Keyword) : word ∈ Keyword.arms := by
  cases word <;> decide

theorem Keyword.ofName_name (word : Keyword) : Keyword.ofName word.name = some word := by
  have all : ∀ word ∈ Keyword.arms, Keyword.ofName word.name = some word := by decide +kernel
  exact all word word.mem_arms

/-- What an atom must be to be one token. -/
def Solid (text : Text) : Prop :=
  text ≠ [] ∧ ∀ char ∈ text, isBlank char = false ∧ endsAtom char = false

/-- The names are capital letters. -/
theorem Keyword.name_facts (word : Keyword) :
    word.name ≠ [] ∧ ∀ char ∈ word.name, char.toNat < 128 ∧ char.toUpper = char ∧
      char.isDigit = false ∧ isBlank char = false ∧ endsAtom char = false := by
  have all : ∀ word ∈ Keyword.arms, word.name ≠ [] ∧ word.name.all (fun char =>
      char.toNat < 128 ∧ char.toUpper = char ∧ char.isDigit = false ∧ isBlank char = false ∧
        endsAtom char = false) = true := by
    decide +kernel
  simpa only [List.all_eq_true, decide_eq_true_eq] using all word word.mem_arms

theorem Keyword.solid_name (word : Keyword) : Solid word.name := by
  obtain ⟨notEmpty, facts⟩ := word.name_facts
  exact ⟨notEmpty, fun char mem => (facts char mem).2.2.2⟩

theorem Keyword.toUppercase_name (casing : Casing) (word : Keyword) : casing.toUppercase word.name = word.name := by
  obtain ⟨-, facts⟩ := word.name_facts
  rw [casing.toUppercase_ascii fun char mem => (facts char mem).1]
  rw [List.map_congr_left fun char mem => (facts char mem).2.1, List.map_id']

/-- A digit is part of an atom and has no case. -/
theorem digit_facts (digit : char.isDigit = true) :
    char.toNat < 128 ∧ isBlank char = false ∧ endsAtom char = false := by
  have bounds := Text.toNat_of_isDigit digit
  have notThat : ∀ other : Char, ¬ (48 ≤ other.toNat ∧ other.toNat ≤ 57) → (char == other) = false := by
    rintro other outside
    rw [beq_eq_false_iff_ne]
    rintro rfl
    exact outside bounds
  refine ⟨by omega, ?_, ?_⟩
  · simp [isBlank, notThat ' ' (by decide), notThat '\t' (by decide), notThat '\r' (by decide),
      notThat '\n' (by decide)]
  · simp [endsAtom, notThat ' ' (by decide), notThat '\t' (by decide), notThat '(' (by decide),
      notThat ')' (by decide), notThat '"' (by decide)]

/-! ## From print to tokens -/

/-- What may follow an atom. -/
def Delimited (rest : Text) : Prop := ∀ char ∈ rest.head?, endsAtom char = true

theorem delimited_nil : Delimited [] := nofun

instance (text : Text) : Decidable (Solid text) := inferInstanceAs (Decidable (_ ∧ _))

theorem delimited_cons (ends : endsAtom char = true) : Delimited (char :: rest) := by
  rintro other same
  cases same
  exact ends

theorem tokenize_blank (rest : Text) : tokenize (' ' :: rest) = tokenize rest := by
  rw [tokenize, if_pos (by decide)]

theorem tokenize_lparen (rest : Text) : tokenize ('(' :: rest) = .lparen :: tokenize rest := by
  rw [tokenize, if_neg (by decide), if_pos rfl]

theorem tokenize_rparen (rest : Text) : tokenize (')' :: rest) = .rparen :: tokenize rest := by
  rw [tokenize, if_neg (by decide), if_neg (by decide), if_pos rfl]

/-- An atom ends where the first character that ends atoms stands. -/
theorem takeWhile_atom {text rest : Text} (part : ∀ char ∈ text, endsAtom char = false) (delimited : Delimited rest) :
    ((text ++ rest).takeWhile fun next => !endsAtom next) = text ∧
      ((text ++ rest).dropWhile fun next => !endsAtom next) = rest := by
  have inAtom : ∀ char ∈ text, (!endsAtom char) = true := fun char mem => by
    rw [part char mem]
    rfl
  rw [List.takeWhile_append_of_pos inAtom, List.dropWhile_append_of_pos inAtom]
  cases rest with
  | nil => simp
  | cons char rest => simp [delimited char rfl]

theorem tokenize_atom {text rest : Text} (solid : Solid text) (delimited : Delimited rest) :
    tokenize (text ++ rest) = .atom text :: tokenize rest := by
  obtain ⟨notEmpty, part⟩ := solid
  cases text with
  | nil => exact absurd rfl notEmpty
  | cons head tail =>
    obtain ⟨⟨notBlank, notEnd⟩, tailPart⟩ := List.forall_mem_cons.mp part
    obtain ⟨taken, dropped⟩ := takeWhile_atom (fun char mem => (tailPart char mem).2) delimited
    have notThat : ∀ other : Char, endsAtom other = true → head ≠ other := by
      rintro other ends rfl
      rw [ends] at notEnd
      cases notEnd
    rw [List.cons_append, tokenize, if_neg (by simp [notBlank]), if_neg (notThat '(' rfl),
      if_neg (notThat ')' rfl), if_neg (notThat '"' rfl), taken, dropped]

theorem readQuoted_plain (plain : ¬ (char = '"' ∨ char = '\\')) (rest : Text) :
    readQuoted (char :: rest) = (char :: (readQuoted rest).1, (readQuoted rest).2) := by
  obtain ⟨noQuote, noBackslash⟩ := not_or.mp plain
  rw [readQuoted.eq_def]
  split <;> simp_all

/-- A quoted string ends at its own quote, not at one that is escaped. -/
theorem readQuoted_escapeQuoted (text rest : Text) :
    readQuoted (escapeQuoted text ++ '"' :: rest) = (text, rest) := by
  induction text with
  | nil => simp [escapeQuoted, readQuoted]
  | cons char text ih =>
    rw [escapeQuoted, List.flatMap_cons, List.append_assoc]
    split
    next special =>
      change readQuoted ('\\' :: char :: (escapeQuoted text ++ '"' :: rest)) = _
      rw [readQuoted, ih]
    next plain =>
      change readQuoted (char :: (escapeQuoted text ++ '"' :: rest)) = _
      rw [readQuoted_plain plain, ih]

theorem tokenize_quoted (text rest : Text) : tokenize (printQuoted text ++ rest) = .quoted text :: tokenize rest := by
  have printed : printQuoted text ++ rest = '"' :: (escapeQuoted text ++ '"' :: rest) := by
    simp [printQuoted]
  rw [printed, tokenize, if_neg (by decide), if_neg (by decide), if_neg (by decide), if_pos rfl,
    readQuoted_escapeQuoted]

/-- The words a key is made of: atoms that are one token each, and strings. -/
def Token.IsWord : Token → Prop
  | .lparen | .rparen => False
  | .atom text => Solid text
  | .quoted _ => True

theorem tokenize_word {word : Token} (isWord : word.IsWord)
    (delimited : Delimited rest) : tokenize (word.print ++ rest) = word :: tokenize rest := by
  cases word with
  | lparen => exact isWord.elim
  | rparen => exact isWord.elim
  | atom text => exact tokenize_atom isWord delimited
  | quoted text => exact tokenize_quoted text rest

theorem tokenize_words {words : List Token} (areWords : ∀ word ∈ words, word.IsWord)
    (delimited : Delimited rest) : tokenize (printWords words ++ rest) = words ++ tokenize rest := by
  unfold printWords
  induction words with
  | nil => simp
  | cons word words ih =>
    obtain ⟨isWord, later⟩ := List.forall_mem_cons.mp areWords
    cases words with
    | nil => simpa using tokenize_word isWord delimited
    | cons next words =>
      rw [List.map_cons, List.map_cons, List.intercalate_cons_cons, ← List.map_cons,
        List.append_assoc, List.append_assoc, List.singleton_append,
        tokenize_word isWord (delimited_cons (by decide)), tokenize_blank,
        ih later]
      simp only [List.cons_append]

/-! ## Arguments -/

theorem parseU32_decimal (value : UInt32) : parseU32 (Text.decimal value.toNat) = some value := by
  rw [parseU32, Text.parseUnsigned_decimal value.toNat_lt, Option.map_some, UInt32.ofNat_toNat]

theorem parseU64_decimal (value : UInt64) : parseU64 (Text.decimal value.toNat) = some value := by
  rw [parseU64, Text.parseUnsigned_decimal value.toNat_lt, Option.map_some, UInt64.ofNat_toNat]

theorem decimal_ne_star (value : Nat) : Text.decimal value ≠ ['*'] := by
  intro isStar
  have noStar : '*' ∉ Text.decimal value := Text.not_mem_decimal (by decide)
  rw [isStar] at noStar
  exact noStar List.mem_cons_self

theorem solid_of_digits (notEmpty : text ≠ []) (digits : ∀ char ∈ text, char.isDigit = true) : Solid text :=
  ⟨notEmpty, fun char mem => (digit_facts (digits char mem)).2⟩

theorem solid_decimal (value : Nat) : Solid (Text.decimal value) :=
  solid_of_digits (Text.decimal_ne_nil value) fun _ => Text.isDigit_of_mem_decimal

/-! ### Sequence sets -/

theorem mem_printRange {range : SeqRange} (mem : char ∈ printRange range) :
    char.isDigit = true ∨ char = ':' ∨ char = '*' := by
  have digit : ∀ {value : Nat}, char ∈ Text.decimal value → char.isDigit = true :=
    fun inDigits => Text.isDigit_of_mem_decimal inDigits
  obtain ⟨start, stop⟩ := range
  have first : char ∈ (if start = 0 then ['*'] else Text.decimal start.toNat) → char.isDigit = true ∨ char = '*' := by
    intro inFirst
    split at inFirst
    · exact .inr (List.mem_singleton.mp inFirst)
    · exact .inl (digit inFirst)
  cases stop with
  | none =>
    rw [printRange] at mem
    split at mem
    · exact .inr (.inr (List.mem_singleton.mp mem))
    · rcases List.mem_append.mp mem with inDigits | later
      · exact .inl (digit inDigits)
      · simpa using Or.inr later
  | some stop =>
    rw [printRange] at mem
    split at mem
    · exact .inl (digit mem)
    · rcases List.mem_append.mp mem with inFirst | later
      · exact (first inFirst).imp id .inr
      · rcases List.mem_cons.mp later with colon | inDigits
        · exact .inr (.inl colon)
        · exact .inl (digit inDigits)

/-- A range is read back, in each of its spellings. -/
theorem parseSeqPart_printRange (range : SeqRange) : parseSeqPart (printRange range) = some range := by
  obtain ⟨start, stop⟩ := range
  have noColon : ':' ∉ Text.decimal start.toNat := Text.not_mem_decimal (by decide)
  have someDigit : Text.decimal start.toNat ≠ [] := Text.decimal_ne_nil _
  cases stop with
  | none =>
    rw [printRange]
    split
    next zero =>
      subst zero
      decide
    next =>
      rw [parseSeqPart, Text.splitOnce_append noColon]
      simp [decimal_ne_star, parseU32_decimal]
  | some stop =>
    rw [printRange]
    split
    next same =>
      subst same
      rw [parseSeqPart, Text.splitOnce_eq_none noColon]
      simp [decimal_ne_star, parseU32_decimal, someDigit]
    next =>
      split
      next zero =>
        subst zero
        have noStarColon : ':' ∉ ['*'] := by decide
        rw [parseSeqPart, Text.splitOnce_append noStarColon]
        simp [decimal_ne_star, parseU32_decimal]
      next =>
        rw [parseSeqPart, Text.splitOnce_append noColon]
        simp [decimal_ne_star, parseU32_decimal]

theorem parseSeqset_printSeqset {set : SeqSet} (notEmpty : set.ranges ≠ []) :
    parseSeqset (printSeqset set) = set := by
  have noComma : ∀ part ∈ set.ranges.map printRange, ',' ∉ part := by
    rintro part mem comma
    obtain ⟨range, -, rfl⟩ := List.mem_map.mp mem
    rcases mem_printRange comma with digit | colon | star
    · exact absurd digit (by decide)
    · exact absurd colon (by decide)
    · exact absurd star (by decide)
  have parsed : parseSeqPart ∘ printRange = some := funext parseSeqPart_printRange
  rw [parseSeqset, printSeqset, List.splitOn_intercalate ',' noComma (by simpa using notEmpty),
    List.filterMap_map, parsed, List.filterMap_some]

/-- A printed set is a set for the parser, too. -/
theorem isSeqset_printSeqset {set : SeqSet} (notEmpty : set.ranges ≠ []) : isSeqset (printSeqset set) = true := by
  have someChar : printSeqset set ≠ [] := by
    intro isEmpty
    have roundTrip := parseSeqset_printSeqset notEmpty
    rw [isEmpty] at roundTrip
    exact notEmpty (roundTrip ▸ rfl)
  have allowed : ∀ char ∈ printSeqset set, char.isDigit = true ∨ char = ':' ∨ char = ',' ∨ char = '*' := by
    intro char mem
    rcases Text.mem_intercalate mem with comma | ⟨part, inParts, inPart⟩
    · exact .inr (.inr (.inl comma))
    · obtain ⟨range, -, rfl⟩ := List.mem_map.mp inParts
      rcases mem_printRange inPart with digit | colon | star
      · exact .inl digit
      · exact .inr (.inl colon)
      · exact .inr (.inr (.inr star))
  simpa [isSeqset, someChar, or_assoc] using allowed

/-- The characters of a set are part of an atom and have no case. -/
theorem seqset_facts (isSet : isSeqset text = true) :
    text ≠ [] ∧ ∀ char ∈ text, char.toNat < 128 ∧ char.toUpper = char ∧ isBlank char = false ∧
      endsAtom char = false := by
  have allowed : text ≠ [] ∧ ∀ char ∈ text, char.isDigit = true ∨ char = ':' ∨ char = ',' ∨ char = '*' := by
    simpa [isSeqset, or_assoc] using isSet
  refine ⟨allowed.1, fun char mem => ?_⟩
  rcases allowed.2 char mem with digit | rfl | rfl | rfl
  · obtain ⟨isAscii, notBlank, notEnd⟩ := digit_facts digit
    refine ⟨isAscii, ?_, notBlank, notEnd⟩
    have bounds : 48 ≤ char.val ∧ char.val ≤ 57 := by simpa [Char.isDigit] using digit
    refine dif_neg ?_
    rintro ⟨low, -⟩
    exact absurd (UInt32.le_trans low bounds.2) (by decide)
  all_goals decide

/-- No keyword looks like a set. -/
theorem ofName_seqset (casing : Casing) (isSet : isSeqset text = true) :
    Keyword.ofName (casing.toUppercase text) = none := by
  obtain ⟨-, facts⟩ := seqset_facts isSet
  rw [casing.toUppercase_ascii fun char mem => (facts char mem).1,
    List.map_congr_left fun char mem => (facts char mem).2.1, List.map_id']
  have names : ∀ word ∈ Keyword.arms, isSeqset word.name = false := by decide +kernel
  rw [Keyword.ofName, List.find?_eq_none]
  intro word inArms same
  rw [decide_eq_true_eq] at same
  rw [← same, names word inArms] at isSet
  cases isSet

theorem solid_of_isSeqset (isSet : isSeqset text = true) : Solid text := by
  obtain ⟨notEmpty, facts⟩ := seqset_facts isSet
  exact ⟨notEmpty, fun char mem => (facts char mem).2.2⟩

/-! ### Dates -/

/-- The truncating division of the source is the era of the year. -/
theorem era_eq {year era yearOfEra : Int} (total : year = yearOfEra + era * 400)
    (low : 0 ≤ yearOfEra) (high : yearOfEra < 400) :
    (if 0 ≤ year then year else year - 399).tdiv 400 = era := by
  have positive : Int.sign 400 = 1 := rfl
  rw [Int.tdiv_eq_ediv]
  split <;> split <;> omega

theorem monthFromMarch_eq (day : Int) :
    (if 2 < (CivilDate.ofDay day).month then (CivilDate.ofDay day).month - 3
      else (CivilDate.ofDay day).month + 9) = (CivilDate.place day).monthFromMarch := by
  have bounds := (CivilDate.place_bounded day).monthFromMarch_bounds
  simp only [CivilDate.ofDay]
  split <;> split <;> omega

/-- The day number of a date is the day the date was made from. -/
theorem daysFromCivil_ofDay (day : Int) :
    daysFromCivil (CivilDate.ofDay day).year (CivilDate.ofDay day).month (CivilDate.ofDay day).day = day := by
  have bounded := CivilDate.place_bounded day
  have low := bounded.yearOfEra_nonneg
  have high := bounded.yearOfEra_lt
  have months := bounded.monthFromMarch_bounds
  have yearEq : (if (CivilDate.ofDay day).month ≤ 2 then (CivilDate.ofDay day).year - 1
      else (CivilDate.ofDay day).year) =
        (CivilDate.place day).yearOfEra + (CivilDate.place day).era * 400 := by
    simp only [CivilDate.ofDay]
    split <;> omega
  have total := CivilDate.place_total day
  have leap := bounded.leapDays
  simp only [daysFromCivil, monthFromMarch_eq, yearEq, era_eq rfl low high]
  rw [Int.add_sub_cancel, Int.tdiv_eq_ediv_of_nonneg low, Int.tdiv_eq_ediv_of_nonneg low,
    Int.tdiv_eq_ediv_of_nonneg (by omega)]
  have dayEq : (CivilDate.ofDay day).day =
      (CivilDate.place day).dayOfYear - (153 * (CivilDate.place day).monthFromMarch + 2) / 5 + 1 := rfl
  rw [dayEq]
  omega

/-- Every spelling of a month is found under its number. -/
theorem findIdx?_monthNames (casing : Casing) {index : Nat} (inYear : index < 12) :
    monthNames.findIdx? (· = casing.toLowercase (monthSpellings.getD index [])) = some index := by
  have isAscii : ∀ index < 12, (monthSpellings.getD index []).all (fun char => char.toNat < 128) = true := by
    decide
  have found : ∀ index < 12,
      monthNames.findIdx? (· = (monthSpellings.getD index []).map Char.toLower) = some index := by
    decide
  have ascii : ∀ char ∈ monthSpellings.getD index [], char.toNat < 128 := by
    simpa only [List.all_eq_true, decide_eq_true_eq] using isAscii index inYear
  rw [casing.toLowercase_ascii _ ascii]
  exact found index inYear

theorem spelling_facts {index : Nat} (inYear : index < 12) : ∀ char ∈ monthSpellings.getD index [],
      char ≠ '-' ∧ isBlank char = false ∧ endsAtom char = false := by
  have all : ∀ index < 12, (monthSpellings.getD index []).all (fun char =>
      char ≠ '-' ∧ isBlank char = false ∧ endsAtom char = false) = true := by
    decide
  simpa only [List.all_eq_true, decide_eq_true_eq] using all index inYear

section Date

variable (day : Int)

theorem monthIndex_lt : ((CivilDate.ofDay day).month - 1).toNat < 12 := by
  have bounds := CivilDate.month_bounds day
  omega

theorem printDate_eq_intercalate : printDate day = ['-'].intercalate [Text.decimal (CivilDate.ofDay day).day.toNat,
      monthSpellings.getD ((CivilDate.ofDay day).month - 1).toNat [],
      Text.padded 4 (CivilDate.ofDay day).year.toNat] := by
  simp [printDate, List.intercalate_cons_cons]

theorem splitOn_printDate : (printDate day).splitOn '-' = [Text.decimal (CivilDate.ofDay day).day.toNat,
      monthSpellings.getD ((CivilDate.ofDay day).month - 1).toNat [],
      Text.padded 4 (CivilDate.ofDay day).year.toNat] := by
  rw [printDate_eq_intercalate, List.splitOn_intercalate '-' _ (by simp)]
  intro part mem dash
  simp only [List.mem_cons, List.not_mem_nil, or_false] at mem
  rcases mem with rfl | rfl | rfl
  · exact Text.not_mem_decimal (by decide) dash
  · exact (spelling_facts (monthIndex_lt day) '-' dash).1 rfl
  · exact absurd (Text.mem_padded dash) (by decide)

theorem solid_printDate : Solid (printDate day) := by
  refine ⟨by simp [printDate], fun char mem => ?_⟩
  rw [printDate_eq_intercalate] at mem
  rcases Text.mem_intercalate mem with rfl | ⟨part, inParts, inPart⟩
  · decide
  · simp only [List.mem_cons, List.not_mem_nil, or_false] at inParts
    rcases inParts with rfl | rfl | rfl
    · exact (digit_facts (Text.isDigit_of_mem_decimal inPart)).2
    · exact (spelling_facts (monthIndex_lt day) char inPart).2
    · exact (digit_facts (Text.mem_padded inPart)).2

theorem parseImapDate_printDate (casing : Casing) (early : 0 ≤ (CivilDate.ofDay day).year)
    (late : (CivilDate.ofDay day).year ≤ 9999) : parseImapDate casing (printDate day) = some day := by
  have months := CivilDate.month_bounds day
  have days := CivilDate.day_bounds day
  have dayRead : Text.parseSigned 64 (Text.decimal (CivilDate.ofDay day).day.toNat) =
      some (CivilDate.ofDay day).day := by
    rw [Text.parseSigned_of_digits (fun _ => Text.isDigit_of_mem_decimal) (Text.digits?_decimal _)
      (by omega), Int.toNat_of_nonneg (by omega)]
  have yearRead : Text.parseSigned 64 (Text.padded 4 (CivilDate.ofDay day).year.toNat) =
      some (CivilDate.ofDay day).year := by
    rw [Text.parseSigned_of_digits (fun _ => Text.mem_padded) (Text.digits?_padded 4 _)
      (by omega), Int.toNat_of_nonneg early]
  have monthRead : ((((CivilDate.ofDay day).month - 1).toNat : Int) + 1) =
      (CivilDate.ofDay day).month := by omega
  simp only [parseImapDate, splitOn_printDate, dayRead, yearRead,
    findIdx?_monthNames casing (monthIndex_lt day), Option.bind_eq_bind, Option.bind_some, monthRead,
    daysFromCivil_ofDay]

end Date

/-! ## From tokens to the key -/

mutual

/-- The tokens of a printed key. -/
def keyTokens : SearchKey → List Token
  | .and keys => .lparen :: (keysTokens keys ++ [.rparen])
  | .or left right => .atom Keyword.or.name :: (keyTokens left ++ keyTokens right)
  | .not key => .atom Keyword.not.name :: keyTokens key
  | key => key.words

def keysTokens : List SearchKey → List Token
  | [] => []
  | key :: rest => keyTokens key ++ keysTokens rest

end

mutual

/-- The key without conjunctions of fewer than two keys. -/
def canonical : SearchKey → SearchKey
  | .and keys => foldAnd (canonicalAll keys)
  | .or left right => .or (canonical left) (canonical right)
  | .not key => .not (canonical key)
  | key => key

def canonicalAll : List SearchKey → List SearchKey
  | [] => []
  | key :: rest => canonical key :: canonicalAll rest

end

theorem keyTokens_leaf (leaf : key.isLeaf = true) : keyTokens key = key.words := by
  cases key <;> first | rfl | cases leaf

theorem canonical_leaf (leaf : key.isLeaf = true) : canonical key = key := by
  cases key <;> first | rfl | cases leaf

theorem solid_anyFlag : Solid anyFlag := by
  refine ⟨by decide, fun char mem => ?_⟩
  obtain rfl : char = 'x' := List.mem_singleton.mp mem
  decide

/-- The words of a printable key are words. -/
theorem isWord_of_mem_words (printable : Printable key) : ∀ word ∈ key.words, word.IsWord := by
  cases key with
  | sequence set =>
    simpa [SearchKey.words, Token.IsWord] using solid_of_isSeqset (isSeqset_printSeqset printable)
  | uid set =>
    simpa [SearchKey.words, Token.IsWord, Keyword.solid_name] using
      solid_of_isSeqset (isSeqset_printSeqset printable)
  | _ =>
    simp [SearchKey.words, Token.IsWord, Keyword.solid_name, solid_anyFlag, solid_printDate, solid_decimal]

theorem tokenize_printKeys {keys : List SearchKey} (each : ∀ key ∈ keys, ∀ rest, Delimited rest →
      tokenize (printKey key ++ rest) = keyTokens key ++ tokenize rest) (delimited : Delimited rest) :
    tokenize (printKeys keys ++ rest) = keysTokens keys ++ tokenize rest := by
  induction keys with
  | nil => rfl
  | cons key keys ih =>
    obtain ⟨here, later⟩ := List.forall_mem_cons.mp each
    cases keys with
    | nil => simpa [printKeys, keysTokens] using here rest delimited
    | cons next keys =>
      rw [printKeys, List.append_assoc, List.cons_append, here _ (delimited_cons (by decide)),
        tokenize_blank, ih later]
      · simp [keysTokens]
      · exact List.cons_ne_nil next keys

/-- The tokenizer cuts a printed key into its tokens. -/
theorem tokenize_printKey (printable : Printable key) :
    ∀ rest, Delimited rest → tokenize (printKey key ++ rest) = keyTokens key ++ tokenize rest := by
  induction key using SearchKey.induction with
  | leaf key leaf =>
    intro rest delimited
    rw [printKey_leaf leaf, keyTokens_leaf leaf]
    exact tokenize_words (isWord_of_mem_words printable) delimited
  | and keys ih =>
    intro rest delimited
    have each := fun key mem =>
      ih key mem ((printableAll_iff keys).mp printable key mem)
    rw [printKey, List.cons_append, List.append_assoc, tokenize_lparen, List.singleton_append,
      tokenize_printKeys each (delimited_cons (by decide)), tokenize_rparen]
    simp [keyTokens]
  | or left right first second =>
    intro rest delimited
    rw [printKey, List.append_assoc, List.cons_append, List.append_assoc, List.cons_append,
      tokenize_atom Keyword.or.solid_name (delimited_cons (by decide)), tokenize_blank,
      first printable.1 _ (delimited_cons (by decide)), tokenize_blank,
      second printable.2 rest delimited]
    simp [keyTokens]
  | not key ih =>
    intro rest delimited
    rw [printKey, List.append_assoc, List.cons_append,
      tokenize_atom Keyword.not.solid_name (delimited_cons (by decide)), tokenize_blank,
      ih printable rest delimited]
    simp [keyTokens]

/-- The tokens of a key begin with one that can begin a key. -/
theorem keyTokens_eq_cons (key : SearchKey) : ∃ first later, keyTokens key = first :: later ∧ first ≠ .rparen := by
  cases key <;> exact ⟨_, _, rfl, nofun⟩

/-- A leaf is read from its words. -/
theorem parseKey_words (casing : Casing) (leaf : key.isLeaf = true)
    (printable : Printable key) (fuel : Nat) (rest : List Token) :
    parseKey casing (fuel + 1) (key.words ++ rest) = (some key, rest) := by
  have date := fun day => parseImapDate_printDate day casing
  cases key with
  | and keys => cases leaf
  | or left right => cases leaf
  | not key => cases leaf
  | sequence set =>
    have isSet := isSeqset_printSeqset printable
    simp [SearchKey.words, parseKey, parseAtomKey, ofName_seqset casing isSet, isSet,
      parseSeqset_printSeqset printable]
  | uid set =>
    simp [SearchKey.words, parseKey, parseAtomKey, Keyword.toUppercase_name, Keyword.ofName_name,
      nextArg, parseSeqset_printSeqset printable]
  | before day | on day | since day | sentBefore day | sentOn day | sentSince day =>
    simp [SearchKey.words, parseKey, parseAtomKey, Keyword.toUppercase_name, Keyword.ofName_name,
      nextArg, dateKey, date day printable.1 printable.2]
  | _ =>
    simp [SearchKey.words, parseKey, parseAtomKey, Keyword.toUppercase_name, Keyword.ofName_name,
      nextArg, strKey, sizeKey, parseU64_decimal]

theorem one_le_length_keyTokens (key : SearchKey) : 1 ≤ (keyTokens key).length := by
  obtain ⟨first, later, equal, -⟩ := keyTokens_eq_cons key
  simp [equal]

/-- Keys that are each read from their tokens are read one after the other. -/
theorem parseKeyList_keysTokens (casing : Casing) {keys : List SearchKey}
    (each : ∀ key ∈ keys, ∀ fuel rest, (keyTokens key).length ≤ fuel →
      parseKey casing fuel (keyTokens key ++ rest) = (some (canonical key), rest))
    {rest ending : List Token} {inGroup : Bool}
    (stop : ∀ fuel, 1 ≤ fuel → parseKeyList casing fuel rest inGroup = ([], ending)) :
    ∀ fuel, (keysTokens keys).length < fuel →
      parseKeyList casing fuel (keysTokens keys ++ rest) inGroup = (canonicalAll keys, ending) := by
  induction keys with
  | nil => exact fun fuel enough => stop fuel (by omega)
  | cons key keys ih =>
    intro fuel enough
    obtain ⟨here, later⟩ := List.forall_mem_cons.mp each
    obtain ⟨first, tail, equal, opens⟩ := keyTokens_eq_cons key
    have notEmpty := one_le_length_keyTokens key
    rw [keysTokens, List.length_append] at enough
    obtain ⟨fuel, rfl⟩ : ∃ smaller, fuel = smaller + 1 := ⟨fuel - 1, by omega⟩
    have read := here fuel (keysTokens keys ++ rest) (by omega)
    rw [equal, List.cons_append] at read
    rw [keysTokens, List.append_assoc, equal, List.cons_append, parseKeyList_open casing opens, read]
    simp only [ih later fuel (by omega), canonicalAll]

/-- The parser reads a key from its tokens. -/
theorem parseKey_keyTokens (casing : Casing) (printable : Printable key) :
    ∀ fuel rest, (keyTokens key).length ≤ fuel →
      parseKey casing fuel (keyTokens key ++ rest) = (some (canonical key), rest) := by
  induction key using SearchKey.induction with
  | leaf key leaf =>
    intro fuel rest enough
    have notEmpty := one_le_length_keyTokens key
    obtain ⟨fuel, rfl⟩ : ∃ smaller, fuel = smaller + 1 := ⟨fuel - 1, by omega⟩
    rw [keyTokens_leaf leaf, canonical_leaf leaf]
    exact parseKey_words casing leaf printable fuel rest
  | and keys ih =>
    intro fuel rest enough
    have each := fun key mem =>
      ih key mem ((printableAll_iff keys).mp printable key mem)
    rw [keyTokens, List.length_cons, List.length_append, List.length_singleton] at enough
    obtain ⟨fuel, rfl⟩ : ∃ smaller, fuel = smaller + 1 := ⟨fuel - 1, by omega⟩
    have closed : ∀ fuel, 1 ≤ fuel → parseKeyList casing fuel (.rparen :: rest) true = ([], rest) := by
      intro fuel positive
      obtain ⟨fuel, rfl⟩ : ∃ smaller, fuel = smaller + 1 := ⟨fuel - 1, by omega⟩
      rw [parseKeyList, if_pos rfl]
    rw [keyTokens, List.cons_append, List.append_assoc, List.singleton_append, parseKey,
      parseKeyList_keysTokens casing each closed fuel (by omega), canonical]
  | or left right first second =>
    intro fuel rest enough
    rw [keyTokens, List.length_cons, List.length_append] at enough
    obtain ⟨fuel, rfl⟩ : ∃ smaller, fuel = smaller + 1 := ⟨fuel - 1, by omega⟩
    have readLeft := first printable.1 fuel (keyTokens right ++ rest) (by omega)
    have readRight := second printable.2 fuel rest (by omega)
    rw [keyTokens, List.cons_append, List.append_assoc, parseKey]
    simp [parseAtomKey, Keyword.toUppercase_name, Keyword.ofName_name, readLeft, readRight, canonical]
  | not key ih =>
    intro fuel rest enough
    rw [keyTokens, List.length_cons] at enough
    obtain ⟨fuel, rfl⟩ : ∃ smaller, fuel = smaller + 1 := ⟨fuel - 1, by omega⟩
    have read := ih printable fuel rest (by omega)
    rw [keyTokens, List.cons_append, parseKey]
    simp [parseAtomKey, Keyword.toUppercase_name, Keyword.ofName_name, read, canonical]

theorem parse_printKey (casing : Casing) (printable : Printable key) :
    parse casing (printKey key) = canonical key := by
  have tokens : tokenize (printKey key) = keysTokens [key] ++ [] := by
    have cut := tokenize_printKey printable [] delimited_nil
    rw [List.append_nil] at cut
    simp [cut, keysTokens, tokenize]
  have atEnd : ∀ fuel, 1 ≤ fuel → parseKeyList casing fuel [] false = ([], []) := by
    intro fuel positive
    obtain ⟨fuel, rfl⟩ : ∃ smaller, fuel = smaller + 1 := ⟨fuel - 1, by omega⟩
    rw [parseKeyList]
  have each : ∀ other ∈ [key], ∀ fuel rest, (keyTokens other).length ≤ fuel →
      parseKey casing fuel (keyTokens other ++ rest) = (some (canonical other), rest) := by
    intro other mem
    rw [List.mem_singleton.mp mem]
    exact parseKey_keyTokens casing printable
  rw [parse, tokens, parseKeyList_keysTokens casing each atEnd _ (by simp; omega)]
  rfl

/-! ## The canonical key means the same -/

section Meaning

variable (casing : Casing) (message : MsgView) (context : SearchContext)

theorem matchesKey_foldAnd (keys : List SearchKey) :
    matchesKey casing message context (foldAnd keys) = matchesAll casing message context keys := by
  match keys with
  | [] => rfl
  | [key] => simp [foldAnd, matchesAll]
  | first :: second :: rest => rfl

theorem matchesKey_canonical (key : SearchKey) :
    matchesKey casing message context (canonical key) = matchesKey casing message context key := by
  induction key using SearchKey.induction with
  | leaf key leaf => rw [canonical_leaf leaf]
  | and keys ih =>
    rw [canonical, matchesKey_foldAnd, matchesKey]
    induction keys with
    | nil => rfl
    | cons key keys later =>
      obtain ⟨here, others⟩ := List.forall_mem_cons.mp ih
      rw [canonicalAll, matchesAll, matchesAll, here, later others]
  | or left right first second => rw [canonical, matchesKey, matchesKey, first, second]
  | not key ih => rw [canonical, matchesKey, matchesKey, ih]

end Meaning

theorem bodyTerms_foldAnd (keys : List SearchKey) : bodyTerms (foldAnd keys) = bodyTermsOf keys := by
  match keys with
  | [] => rfl
  | [key] => simp [foldAnd, bodyTermsOf]
  | first :: second :: rest => rfl

theorem bodyTerms_canonical (key : SearchKey) : bodyTerms (canonical key) = bodyTerms key := by
  induction key using SearchKey.induction with
  | leaf key leaf => rw [canonical_leaf leaf]
  | and keys ih =>
    rw [canonical, bodyTerms_foldAnd, bodyTerms]
    induction keys with
    | nil => rfl
    | cons key keys later =>
      obtain ⟨here, others⟩ := List.forall_mem_cons.mp ih
      rw [canonicalAll, bodyTermsOf, bodyTermsOf, here, later others]
  | or left right first second => rw [canonical, bodyTerms, bodyTerms, first, second]
  | not key ih => rw [canonical, bodyTerms, bodyTerms, ih]

/-- What the parser reads from a printed key matches the same messages and asks
the full-text index for the same terms. -/
theorem parse_printKey_meaning (casing : Casing) (key : SearchKey) (printable : Printable key) :
    (∀ message context, matchesKey casing message context (parse casing (printKey key)) =
      matchesKey casing message context key) ∧
      collectBodyTerms (parse casing (printKey key)) = collectBodyTerms key := by
  rw [parse_printKey casing printable]
  refine ⟨fun message context => matchesKey_canonical casing message context key, ?_⟩
  rw [collectBodyTerms, bodyTerms_canonical, collectBodyTerms]

/-- A query with a nested conjunction, a string to escape, a date and a set. -/
def nestedKey : SearchKey :=
  .and [.or (.body "say \"hi\"".toList) (.not (.and [.since 18293])),
    .sequence ⟨[⟨2, none⟩, ⟨7, some 7⟩, ⟨0, none⟩, ⟨0, some 4⟩, ⟨3, some 5⟩]⟩]

example : printKey nestedKey =
    "(OR BODY \"say \\\"hi\\\"\" NOT (SINCE 1-Feb-2020) 2:*,7,*,*:4,3:5)".toList := by
  decide +kernel

theorem parse_printKey_meaning_nested :
    Printable nestedKey ∧ collectBodyTerms (parse .ascii (printKey nestedKey)) = ["say \"hi\"".toList] := by
  have printable : Printable nestedKey := by
    simp only [nestedKey, Printable, PrintableAll]
    decide
  refine ⟨printable, (parse_printKey_meaning .ascii nestedKey printable).2.trans ?_⟩
  decide +kernel

end TutaBridge.Imap
