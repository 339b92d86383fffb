import TutaBridge.Mail.Rendering
import TutaBridge.Mail.EncodedWords

/-!
# Headers of several words

A header's value is plain text and encoded words, one after the other. The space between two
encoded words belongs to neither, every other space is text, and a line may be folded at any
of them.
-/

namespace TutaBridge.Mail

open TutaBridge.Std TutaBridge.Std.Text

/-! ## Words -/

/-- A character that stands for itself in the Q encoding. -/
def IsQLiteral (char : Char) : Prop :=
  char ≠ '=' ∧ char ≠ '?' ∧ char ≠ '_' ∧ isWhitespace char = false

/-- What the Q encoding writes next. -/
inductive QPiece where
  | literal (char : Char) (isLiteral : IsQLiteral char)
  | escaped (byte : UInt8) (upperFirst upperSecond : Bool)
  | blank

namespace QPiece

def written : QPiece → Text
  | literal char _ => [char]
  | escaped byte upperFirst upperSecond => escapedByte byte upperFirst upperSecond
  | blank => ['_']

/-- The bytes that are meant. -/
def bytes : QPiece → List UInt8
  | literal char _ => Utf8.encode [char]
  | escaped byte _ _ => [byte]
  | blank => [32]

end QPiece

/-- The text of an encoded word in one of the two encodings. -/
inductive EncodedText where
  | base64 (content : Text)
  | quoted (pieces : List QPiece) (content : Text)
      (encodes : pieces.flatMap QPiece.bytes = Utf8.encode content)

namespace EncodedText

def content : EncodedText → Text
  | base64 content | quoted _ content _ => content

def written : EncodedText → Text
  | base64 content => base64Text content
  | quoted pieces _ _ => pieces.flatMap QPiece.written

def encoding (lower : Bool) : EncodedText → Text
  | base64 _ => if lower then ['b'] else ['B']
  | quoted .. => if lower then ['q'] else ['Q']

end EncodedText

/-- An encoded word in UTF-8, its charset and its encoding in upper or lower case. -/
structure EncodedWord where
  charset : Text
  isUtf8 : charset.map Char.toLower = "utf-8".toList
  lower : Bool
  text : EncodedText

def EncodedWord.written (word : EncodedWord) : Text :=
  '=' :: '?' :: (word.charset ++ '?' :: (word.text.encoding word.lower ++ '?' ::
    (word.text.written ++ ['?', '='])))

/-- A plain text, or an encoded word. -/
inductive HeaderWord where
  | plain (text : Text) (notEmpty : text ≠ []) (trimmed : trim text = text)
      (unbroken : Unbroken text) (noWord : contains text ['=', '?'] = false)
  | encoded (word : EncodedWord)

namespace HeaderWord

def written : HeaderWord → Text
  | plain text .. => text
  | encoded word => word.written

def content : HeaderWord → Text
  | plain text .. => text
  | encoded word => word.text.content

def isEncoded : HeaderWord → Bool
  | plain .. => false
  | encoded _ => true

end HeaderWord

/-- What a value of these words says. -/
def meaning : List HeaderWord → Text
  | [] => []
  | [word] => word.content
  | word :: next :: rest =>
    word.content ++ (if word.isEncoded && next.isEncoded then [] else [' ']) ++ meaning (next :: rest)

/-- The value as it is written on one line. -/
def wordsText (words : List HeaderWord) : Text := [' '].intercalate (words.map HeaderWord.written)

/-! ## The text of a word -/

theorem decodeQBytes_cons {byte : UInt8} (noEscape : byte ≠ 61) (rest : List UInt8) :
    decodeQBytes (byte :: rest) = qByte byte :: decodeQBytes rest := by
  cases rest with
  | nil => rfl
  | cons first rest => cases rest <;> simp [decodeQBytes, noEscape]

theorem decodeQBytes_append {bytes : List UInt8} (noEscape : 61 ∉ bytes) (noBlank : 95 ∉ bytes)
    (rest : List UInt8) : decodeQBytes (bytes ++ rest) = bytes ++ decodeQBytes rest := by
  induction bytes with
  | nil => rfl
  | cons byte bytes ih =>
    obtain ⟨escapeDiffers, noEscape⟩ := not_or.mp (mt List.mem_cons.mpr noEscape)
    obtain ⟨blankDiffers, noBlank⟩ := not_or.mp (mt List.mem_cons.mpr noBlank)
    rw [List.cons_append, decodeQBytes_cons (Ne.symm escapeDiffers), qByte,
      if_neg (Ne.symm blankDiffers), ih noEscape noBlank, List.cons_append]

theorem decodeQBytes_piece (piece : QPiece) (rest : List UInt8) :
    decodeQBytes (Utf8.encode piece.written ++ rest) = piece.bytes ++ decodeQBytes rest := by
  cases piece with
  | literal char isLiteral =>
    obtain ⟨noEscape, -, noBlank, -⟩ := isLiteral
    have single : ∀ mark : Char, mark.toNat < 0x80 → char ≠ mark →
        UInt8.ofNat mark.toNat ∉ Utf8.encode [char] := fun mark ascii different mem =>
      different (List.mem_singleton.mp (Utf8.mem_of_mem_encode ascii mem)).symm
    exact decodeQBytes_append (single '=' (by decide) noEscape) (single '_' (by decide) noBlank) rest
  | escaped byte upperFirst upperSecond =>
    obtain ⟨first, second, bytes, reads, -, -⟩ := encode_escapedByte byte upperFirst upperSecond
    rw [QPiece.written, bytes]
    simp [decodeQBytes, reads, QPiece.bytes]
  | blank =>
    have bytes : Utf8.encode QPiece.blank.written = [95] := by decide
    rw [bytes, List.singleton_append, decodeQBytes_cons (by decide)]
    rfl

theorem decodeQBytes_pieces (pieces : List QPiece) :
    decodeQBytes (Utf8.encode (pieces.flatMap QPiece.written)) = pieces.flatMap QPiece.bytes := by
  induction pieces with
  | nil => rfl
  | cons piece rest ih =>
    rw [List.flatMap_cons, List.flatMap_cons, Utf8.encode_append, decodeQBytes_piece, ih]

/-- The encoding may be named in lower case. -/
theorem toUppercase_encoding (casing : Casing) (lower : Bool) :
    casing.toUppercase (if lower then ['b'] else ['B']) = ['B'] ∧
      casing.toUppercase (if lower then ['q'] else ['Q']) = ['Q'] := by
  cases lower <;>
    exact ⟨casing.toUppercase_ascii (by decide), casing.toUppercase_ascii (by decide)⟩

theorem decodeEncoding_text (casing : Casing) (lower : Bool) (text : EncodedText) :
    decodeEncoding casing (text.encoding lower) text.written = some text.content := by
  obtain ⟨isB, isQ⟩ := toUppercase_encoding casing lower
  cases text with
  | base64 content =>
    have same : decodeEncoding casing (if lower then ['b'] else ['B']) (base64Text content) =
        decodeEncoding casing ['B'] (base64Text content) := by
      have plain : casing.toUppercase ['B'] = ['B'] := casing.toUppercase_ascii (by decide)
      rw [decodeEncoding, decodeEncoding, isB, plain]
    exact same.trans (decodeEncoding_base64Text casing content)
  | quoted pieces content encodes =>
    have read : decodeQEncoding (pieces.flatMap QPiece.written) = content := by
      rw [decodeQEncoding, decodeQBytes_pieces, encodes, Utf8.decode_encode, Option.getD_some]
    rw [EncodedText.encoding, decodeEncoding, isQ, if_neg (by decide), if_pos rfl, EncodedText.written, read]
    rfl

/-! ## How a word is written -/

/-- No character of a word is white space, and only its ends are question marks. -/
theorem solid_piece (piece : QPiece) : ∀ char ∈ piece.written, isWhitespace char = false ∧ char ≠ '?' := by
  cases piece with
  | literal char isLiteral =>
    intro other mem
    rw [List.mem_singleton.mp mem]
    exact ⟨isLiteral.2.2.2, isLiteral.2.1⟩
  | escaped byte upperFirst upperSecond =>
    have digits : ∀ upper, ∀ value < 16,
        isWhitespace (hexChar upper value) = false ∧ hexChar upper value ≠ '?' := by decide
    have small : byte.toNat < 256 := byte.toNat_lt
    refine List.forall_mem_cons.mpr ⟨by decide, List.forall_mem_cons.mpr ⟨?_,
      List.forall_mem_singleton.mpr ?_⟩⟩
    · exact digits upperFirst (byte.toNat / 16) (by omega)
    · exact digits upperSecond (byte.toNat % 16) (by omega)
  | blank => decide

theorem solid_text (text : EncodedText) : ∀ char ∈ text.written, isWhitespace char = false ∧ char ≠ '?' := by
  cases text with
  | base64 content =>
    intro char mem
    refine ⟨solid_base64 _ char mem, ?_⟩
    rintro rfl
    exact not_mem_base64Text (by decide) (by decide) content mem
  | quoted pieces content encodes =>
    intro char mem
    obtain ⟨piece, -, inPiece⟩ := List.mem_flatMap.mp mem
    exact solid_piece piece char inPiece

theorem solid_encoding (text : EncodedText) (lower : Bool) :
    ∀ char ∈ text.encoding lower, isWhitespace char = false ∧ char ≠ '?' := by
  cases text <;> cases lower <;> exact List.forall_mem_singleton.mpr (by decide)

theorem solid_charset (word : EncodedWord) : ∀ char ∈ word.charset, isWhitespace char = false ∧ char ≠ '?' := by
  intro char mem
  have inName : char.toLower ∈ "utf-8".toList := word.isUtf8 ▸ List.mem_map_of_mem mem
  have small : ∀ char ∈ "utf-8".toList, char.toNat < 128 := by decide
  have facts := @of_ascii (fun char => char.toLower ∈ "utf-8".toList →
    isWhitespace char = false ∧ char ≠ '?') (by decide) char (ascii_of_toLower (small _ inName))
  exact facts inName

theorem solid_encodedWord (word : EncodedWord) : ∀ char ∈ word.written, isWhitespace char = false := by
  have charset := fun char mem => (solid_charset word char mem).1
  have encoding := fun char mem => (solid_encoding word.text word.lower char mem).1
  have text := fun char mem => (solid_text word.text char mem).1
  simp only [EncodedWord.written, List.forall_mem_cons, List.forall_mem_append]
  exact ⟨by decide, by decide, charset, by decide, encoding, by decide, text, by decide, by decide,
    List.forall_mem_nil _⟩

namespace HeaderWord

theorem written_ne_nil (word : HeaderWord) : word.written ≠ [] := by
  cases word with
  | plain text notEmpty => exact notEmpty
  | encoded word => exact List.cons_ne_nil _ _

theorem trim_written (word : HeaderWord) : trim word.written = word.written := by
  cases word with
  | plain text notEmpty trimmed => exact trimmed
  | encoded word => exact trim_eq_self (solid_encodedWord word)

theorem unbroken_written (word : HeaderWord) : Unbroken word.written := by
  cases word with
  | plain text notEmpty trimmed unbroken => exact unbroken
  | encoded word => exact Unbroken.of_solid (solid_encodedWord word)

end HeaderWord

/-! ## Values -/

theorem wordsText_cons_cons (word next : HeaderWord) (rest : List HeaderWord) :
    wordsText (word :: next :: rest) = word.written ++ ' ' :: wordsText (next :: rest) := by
  rw [wordsText, List.map_cons, List.map_cons, List.intercalate_cons_cons, List.append_assoc]
  rfl

theorem wordsText_singleton (word : HeaderWord) : wordsText [word] = word.written := by
  simp [wordsText]

/-- What stands at the edges of a value shows. -/
theorem trim_wordsText (words : List HeaderWord) : trim (wordsText words) = wordsText words := by
  have edges : ∀ word : HeaderWord, (∀ char ∈ word.written.head?, isWhitespace char = false) ∧
      ∀ char ∈ word.written.getLast?, isWhitespace char = false := fun word =>
    trim_eq_self_iff.mp word.trim_written
  refine trim_eq_self_iff.mpr ⟨?_, ?_⟩
  · cases words with
    | nil => rintro char ⟨⟩
    | cons word rest =>
      obtain ⟨head, tail, shape⟩ := List.exists_cons_of_ne_nil word.written_ne_nil
      have visible := (edges word).1 head (by rw [shape]; rfl)
      have first : (wordsText (word :: rest)).head? = some head := by
        cases rest with
        | nil => rw [wordsText_singleton, shape, List.head?_cons]
        | cons next rest => rw [wordsText_cons_cons, shape, List.cons_append, List.head?_cons]
      rw [first]
      rintro char ⟨⟩
      exact visible
  · induction words with
    | nil => rintro char ⟨⟩
    | cons word rest ih =>
      cases rest with
      | nil =>
        rw [wordsText_singleton]
        exact (edges word).2
      | cons next rest =>
        have notEmpty : wordsText (next :: rest) ≠ [] := by
          cases rest with
          | nil =>
            rw [wordsText_singleton]
            exact next.written_ne_nil
          | cons after rest => simp [wordsText_cons_cons]
        obtain ⟨head, tail, shape⟩ := List.exists_cons_of_ne_nil notEmpty
        rw [shape] at ih
        rw [wordsText_cons_cons, shape, List.getLast?_append, List.getLast?_cons_cons]
        intro char isLast
        refine ih char ?_
        cases found : (head :: tail).getLast? with
        | none => exact absurd (List.getLast?_eq_none_iff.mp found) (List.cons_ne_nil _ _)
        | some last => rwa [found, Option.some_or] at isLast

/-- A plain text does not begin a word. -/
theorem isPrefixOf_plain {text rest : Text} (notEmpty : text ≠ [])
    (noWord : contains text ['=', '?'] = false) (noMark : rest.head? ≠ some '?') :
    ['=', '?'].isPrefixOf (text ++ rest) = false := by
  rw [← Bool.not_eq_true, contains_iff] at noWord
  rw [← Bool.not_eq_true, List.isPrefixOf_iff_prefix]
  rintro ⟨behind, same⟩
  obtain ⟨head, later, rfl⟩ := List.exists_cons_of_ne_nil notEmpty
  cases later with
  | nil =>
    simp only [List.cons_append, List.nil_append, List.cons.injEq] at same
    exact noMark (by rw [← same.2, List.head?_cons])
  | cons second later =>
    simp only [List.cons_append, List.cons.injEq] at same
    obtain ⟨rfl, rfl, -⟩ := same
    exact noWord ⟨[], later, rfl⟩

section Decoding

variable (casing : Casing)

/-- A plain text is read as it is, unless it ends in the middle of a mark. -/
theorem decodeWords_plain {text rest : Text} (noWord : contains text ['=', '?'] = false)
    (noMark : rest.head? ≠ some '?') : decodeWords casing (text ++ rest) = text ++ decodeWords casing rest := by
  induction text with
  | nil => rfl
  | cons char later ih =>
    have noWordLater : contains later ['=', '?'] = false := by
      rw [← Bool.not_eq_true, contains_iff] at noWord ⊢
      exact fun occurs => noWord (occurs.trans (List.suffix_cons char later).isInfix)
    have noBegin : ['=', '?'].isPrefixOf (char :: (later ++ rest)) = false :=
      isPrefixOf_plain (List.cons_ne_nil char later) noWord noMark
    rw [List.cons_append, decodeWords, noBegin, if_neg (by decide), ih noWordLater, List.cons_append]

theorem decodeWords_encoded (word : EncodedWord) (rest : Text) : decodeWords casing (word.written ++ rest) =
      word.text.content ++ decodeWords casing (betweenWords rest) := by
  have shape : word.written ++ rest = '=' :: '?' :: (word.charset ++ '?' ::
      (word.text.encoding word.lower ++ '?' :: (word.text.written ++ '?' :: '=' :: rest))) := by
    simp [EncodedWord.written]
  rw [shape]
  refine decodeWords_word (encodedWord_parts ?_ ?_ ?_ (decodeEncoding_text casing word.lower word.text) rest)
  · exact fun mem => (solid_charset word _ mem).2 rfl
  · exact fun mem => (solid_encoding word.text word.lower _ mem).2 rfl
  · exact fun mem => (solid_text word.text _ mem).2 rfl

/-- The space behind an encoded word is none of the text where another one follows. -/
theorem betweenWords_wordsText (word : HeaderWord) (rest : List HeaderWord) :
    betweenWords (' ' :: wordsText (word :: rest)) =
      if word.isEncoded then wordsText (word :: rest) else ' ' :: wordsText (word :: rest) := by
  obtain ⟨behind, shape, noMark⟩ : ∃ behind : Text,
      wordsText (word :: rest) = word.written ++ behind ∧ behind.head? ≠ some '?' := by
    cases rest with
    | nil => exact ⟨[], by rw [wordsText_singleton, List.append_nil], by simp⟩
    | cons next rest => exact ⟨_, wordsText_cons_cons word next rest, by simp⟩
  have trimmed : trimStart (' ' :: wordsText (word :: rest)) = wordsText (word :: rest) := by
    obtain ⟨head, tail, isWord⟩ := List.exists_cons_of_ne_nil word.written_ne_nil
    have visible := (trim_eq_self_iff.mp word.trim_written).1 head (by rw [isWord]; rfl)
    rw [shape, isWord, trimStart, List.dropWhile_cons_of_pos (by decide)]
    exact trimStart_cons visible
  rw [betweenWords, trimmed, shape]
  cases word with
  | plain text notEmpty trimmed unbroken noWord =>
    have noBegin := isPrefixOf_plain notEmpty noWord noMark
    rw [HeaderWord.written, noBegin]
    rfl
  | encoded word =>
    have begins : ['=', '?'].isPrefixOf ((HeaderWord.encoded word).written ++ behind) = true := by
      rw [List.isPrefixOf_iff_prefix]
      exact ⟨_, rfl⟩
    rw [begins]
    rfl

theorem decodeWords_wordsText (words : List HeaderWord) : decodeWords casing (wordsText words) = meaning words := by
  have nothing : decodeWords casing [] = [] := by rw [decodeWords]
  induction words with
  | nil => exact nothing
  | cons word rest ih =>
    cases rest with
    | nil =>
      rw [wordsText_singleton, ← List.append_nil word.written]
      cases word with
      | plain text notEmpty trimmed unbroken noWord =>
        rw [HeaderWord.written, decodeWords_plain casing noWord (by simp), nothing, List.append_nil]
        rfl
      | encoded word =>
        have nothingLeft : betweenWords [] = [] := rfl
        rw [HeaderWord.written, decodeWords_encoded, nothingLeft, nothing, List.append_nil]
        rfl
    | cons next rest =>
      have space : decodeWords casing (' ' :: wordsText (next :: rest)) = ' ' :: meaning (next :: rest) := by
        rw [decodeWords, if_neg (by simp), ih]
      rw [wordsText_cons_cons, meaning]
      cases word with
      | plain text notEmpty trimmed unbroken noWord =>
        rw [HeaderWord.written, decodeWords_plain casing noWord (by simp), space]
        simp [HeaderWord.content, HeaderWord.isEncoded]
      | encoded word =>
        rw [HeaderWord.written, decodeWords_encoded, betweenWords_wordsText]
        cases isEncoded : next.isEncoded with
        | true =>
          rw [if_pos rfl, ih]
          simp [HeaderWord.content, HeaderWord.isEncoded]
        | false =>
          rw [if_neg (by decide), space]
          simp [HeaderWord.content, HeaderWord.isEncoded]

/-- A value of plain texts and encoded words is read as it is meant. -/
theorem decodeHeaderValue_wordsText (words : List HeaderWord) :
    decodeHeaderValue casing (wordsText words) = meaning words := by
  rw [decodeHeaderValue, trim_wordsText]
  cases hasWord : contains (wordsText words) ['=', '?'] with
  | true => exact decodeWords_wordsText casing words
  | false =>
    have plain := @decodeWords_plain casing (wordsText words) [] hasWord (by simp)
    rw [List.append_nil, decodeWords, List.append_nil] at plain
    exact plain.symm.trans (decodeWords_wordsText casing words)

end Decoding

/-! ## Folded headers -/

/-- Words with a space before each. -/
def rowText (row : List HeaderWord) : Text := row.flatMap fun word => ' ' :: word.written

/-- A header that is folded before each of the rows but the first. -/
def foldedLines (name : String) (first : List HeaderWord) (rows : List (List HeaderWord)) : List Text :=
  (name.toList ++ ':' :: rowText first) :: rows.map rowText

theorem rowText_eq {row : List HeaderWord} (notEmpty : row ≠ []) : rowText row = ' ' :: wordsText row := by
  induction row with
  | nil => exact absurd rfl notEmpty
  | cons word rest ih =>
    cases rest with
    | nil => simp [rowText, wordsText]
    | cons next rest =>
      have later := ih (List.cons_ne_nil _ _)
      rw [rowText] at later
      rw [rowText, List.flatMap_cons, later, wordsText_cons_cons, List.cons_append]

theorem trim_rowText (row : List HeaderWord) : trim (rowText row) = wordsText row := by
  by_cases isEmpty : row = []
  · subst isEmpty
    rfl
  · have blank := @trim_append_left (wordsText row) [' '] (by decide)
    rw [rowText_eq isEmpty]
    exact blank.trans (trim_wordsText row)

theorem unbroken_rowText (row : List HeaderWord) : Unbroken (rowText row) := by
  induction row with
  | nil => exact Unbroken.nil
  | cons word rest ih =>
    rw [rowText, List.flatMap_cons, Unbroken.append_iff, Unbroken.cons_iff]
    exact ⟨⟨by decide, word.unbroken_written⟩, ih⟩

section Folding

variable (casing : Casing)

/-- The rows of a folded header are read into its value. -/
theorem foldl_rows {rows : List (List HeaderWord)} (notEmpty : ∀ row ∈ rows, row ≠ [])
    (reader : HeaderReader) :
    (rows.map rowText).foldl (HeaderReader.line casing) reader =
      { reader with currentValue := reader.currentValue ++ rowText rows.flatten } := by
  induction rows generalizing reader with
  | nil => simp [rowText]
  | cons row rest ih =>
    obtain ⟨rowNotEmpty, notEmpty⟩ := List.forall_mem_cons.mp notEmpty
    have isFold : (rowText row).head? = some ' ' ∨ (rowText row).head? = some '\t' := by
      rw [rowText_eq rowNotEmpty]
      exact .inl rfl
    have append : rowText (row :: rest).flatten = rowText row ++ rowText rest.flatten := by
      simp [rowText]
    rw [List.map_cons, List.foldl_cons, HeaderReader.line, if_pos isFold, trim_rowText,
      ← rowText_eq rowNotEmpty, ih notEmpty, append, List.append_assoc]

/-- A header of several words among others, folded at any of its spaces. -/
structure FoldedHeader (words : List HeaderWord) where
  before : List (String × Text)
  name : String
  header : String
  first : List HeaderWord
  rows : List (List HeaderWord)
  after : List (String × Text)
  isName : isFieldName name = true
  solid : ∀ field ∈ before ++ after, isFieldName field.1 = true ∧ Unbroken field.2
  isHeader : header.toList = name.toList.map Char.toLower
  isFirst : Lacks before header
  notEmpty : ∀ row ∈ rows, row ≠ []
  cut : first ++ rows.flatten = words

variable {words : List HeaderWord} (folded : FoldedHeader words)

/-- The header section. -/
def FoldedHeader.text : Text :=
  joinLines (fieldLines folded.before ++ foldedLines folded.name folded.first folded.rows ++
    fieldLines folded.after)

theorem solid_foldedLines : ∀ line ∈ fieldLines folded.before ++ foldedLines folded.name folded.first folded.rows ++
      fieldLines folded.after, line ≠ [] ∧ Unbroken line := by
  obtain ⟨solidBefore, solidAfter⟩ := List.forall_mem_append.mp folded.solid
  have name : Unbroken folded.name.toList :=
    Unbroken.of_solid fun char mem => (plain_of_mem_name folded.isName mem).2.1
  refine List.forall_mem_append.mpr ⟨List.forall_mem_append.mpr ⟨solid_fieldLines solidBefore,
    List.forall_mem_cons.mpr ⟨⟨by simp, ?_⟩, ?_⟩⟩, solid_fieldLines solidAfter⟩
  · simp [name, unbroken_rowText]
  · intro line mem
    obtain ⟨row, inRows, rfl⟩ := List.mem_map.mp mem
    refine ⟨?_, unbroken_rowText row⟩
    rw [rowText_eq (folded.notEmpty row inRows)]
    exact List.cons_ne_nil _ _

theorem parseHeaders_folded : parseHeaders casing folded.text =
      readFields folded.before ++ (folded.name.toList.map Char.toLower, wordsText words) ::
        readFields folded.after := by
  obtain ⟨solidBefore, solidAfter⟩ := List.forall_mem_append.mp folded.solid
  have lower : casing.toLowercase folded.name.toList = folded.name.toList.map Char.toLower :=
    casing.toLowercase_ascii _ fun char mem => (plain_of_mem_name folded.isName mem).1
  have value : rowText folded.first ++ rowText folded.rows.flatten = rowText words := by
    rw [rowText, rowText, rowText, ← List.flatMap_append, folded.cut]
  have first := foldl_fieldLines casing (fun field mem => (solidBefore field mem).1) ⟨[], [], []⟩
  have last := foldl_fieldLines casing fun field mem => (solidAfter field mem).1
  rw [parseHeaders, FoldedHeader.text, lines_joinLines (solid_foldedLines folded), List.foldl_append,
    List.foldl_append, last, foldedLines, List.foldl_cons, line_named casing _ folded.isName,
    foldl_rows casing folded.notEmpty, value, first]
  rw [HeaderReader.finish, if_neg (solid_of_isFieldName folded.isName).1, lower, trim_rowText,
    List.append_assoc]
  rfl

/-- The words of a header are read as they are meant, on one line and folded at any of the
spaces between them. -/
theorem header_words_read (words : List HeaderWord) : decodeHeaderValue casing (wordsText words) = meaning words ∧
      ∀ folded : FoldedHeader words,
        (getHeader (parseHeaders casing folded.text) folded.header).map (decodeHeaderValue casing) =
          some (meaning words) := by
  have decoded := decodeHeaderValue_wordsText casing words
  refine ⟨decoded, fun folded => ?_⟩
  have notBefore : (readFields folded.before).find? (fun field => field.1 = folded.header.toList) = none := by
    rw [List.find?_eq_none]
    intro field mem
    obtain ⟨original, inBefore, rfl⟩ := List.mem_map.mp mem
    simpa using folded.isFirst original inBefore
  rw [parseHeaders_folded, getHeader, List.find?_append, notBefore, Option.none_or,
    List.find?_cons_of_pos (by simp [folded.isHeader]), Option.map_some, Option.map_some, decoded]

end Folding

/-! ## A folded subject -/

/-- Two encoded words, the first of which begins with an escape, and a plain one. -/
def subjectWords : List HeaderWord :=
  [.encoded ⟨"utf-8".toList, by decide, true,
      .quoted [.escaped 0xC3 true true, .escaped 0x89 true true, .literal 't' (by unfold IsQLiteral; decide)]
        "Ét".toList (by decide)⟩,
    .encoded ⟨"UTF-8".toList, by decide, false, .base64 "é".toList⟩,
    .plain "2=2?".toList (by decide) (by decide) (by decide) (by decide)]

/-- The subject, folded between the encoded words. -/
def foldedSubject : FoldedHeader subjectWords where
  before := [("To", "eve@example.org".toList)]
  name := "Subject"
  header := "subject"
  first := subjectWords.take 1
  rows := [subjectWords.drop 1]
  after := []
  isName := by decide
  solid := by
    intro field mem
    rw [List.mem_singleton.mp mem]
    exact ⟨(by decide : isFieldName "To" = true), by decide⟩
  isHeader := by decide
  isFirst := by
    intro field mem
    rw [List.mem_singleton.mp mem]
    decide
  notEmpty := by simp [subjectWords]
  cut := by simp [subjectWords]

theorem folded_subject_read :
    (getHeader (parseHeaders .ascii foldedSubject.text) "subject").map (decodeHeaderValue .ascii) =
      some "Été 2=2?".toList :=
  (header_words_read .ascii subjectWords).2 foldedSubject

end TutaBridge.Mail
