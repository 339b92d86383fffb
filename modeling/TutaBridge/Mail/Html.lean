import TutaBridge.Std.Replace

/-!
# Plain text in HTML and back

A plain text is stored as HTML: `plaintext_to_tuta_html` escapes what HTML would read and
writes a `<br>` for every line break. `html_to_text` makes a text of any HTML body. It trims
the HTML first, so what it reads back of a stored text is trimmed as well.
-/

namespace TutaBridge.Mail

open TutaBridge.Std TutaBridge.Std.Text

variable (text : Text) {rest : Text} {char : Char}

/-- `plaintext_to_tuta_html`. -/
def plaintextToTutaHtml (text : Text) : Text :=
  replace ['\r'] "<br>".toList (replace ['\n'] "<br>".toList (replace ['\r', '\n'] "<br>".toList
    (replace ['>'] "&gt;".toList (replace ['<'] "&lt;".toList (replace ['&'] "&amp;".toList text)))))

/-- `decode_entities`. -/
def decodeEntities (text : Text) : Text :=
  replace "&amp;".toList ['&'] (replace "&apos;".toList "'".toList (replace "&#39;".toList "'".toList
    (replace "&quot;".toList ['"'] (replace "&gt;".toList ['>'] (replace "&lt;".toList ['<']
      (replace "&nbsp;".toList [' '] text))))))

/-! ## Tags -/

def isClosingTag (tag : Text) : Bool := tag.head? = some '/'

def tagName (tag : Text) : Text :=
  (tag.dropWhile (· = '/')).takeWhile fun char => !(isWhitespace char || char = '/')

/-- A tag whose content is no text. -/
def hidesContent (tag : Text) : Bool :=
  !isClosingTag tag && ["script", "style"].any fun name => tagName tag = name.toList

/-- A tag that becomes a line break. -/
def breaksLine (tag : Text) : Bool :=
  tagName tag = "br".toList || isClosingTag tag &&
      ["p", "div", "tr", "li", "pre", "blockquote", "h1", "h2", "h3", "h4", "h5", "h6"].any
        fun name => tagName tag = name.toList

/-- What the loop of `html_to_text` writes for a tag. -/
def tagText (tag : Text) : Text := if !hidesContent tag && breaksLine tag then ['\n'] else []

/-- What the loop is in the middle of. -/
inductive Scan where
  | text
  | tag (read : Text)
  | hidden (close window : Text)
  | closing

/-- What the loop goes on with after a tag. -/
def afterTag (tag : Text) : Scan :=
  if hidesContent tag then .hidden ('<' :: '/' :: tagName tag) [] else .text

/-- The loop of `html_to_text`. A tag that is not closed ends with the input. -/
def stripTags : Scan → Text → Text
  | .text, [] => []
  | .tag read, [] => tagText read
  | .hidden _ _, [] => []
  | .closing, [] => []
  | .text, char :: rest =>
    if char = '<' then stripTags (.tag []) rest else char :: stripTags .text rest
  | .tag read, char :: rest =>
    if char = '>' then tagText read ++ stripTags (afterTag read) rest
    else stripTags (.tag (read ++ [char.toLower])) rest
  | .hidden close window, char :: rest =>
    let window := window ++ [char.toLower]
    if close.isSuffixOf window then stripTags .closing rest
    else stripTags (.hidden close window) rest
  | .closing, char :: rest =>
    if char = '>' then stripTags .text rest else stripTags .closing rest

/-- The content of a text that is one `<pre>` block without tags in it. -/
def flatPre (trimmed : Text) : Option Text :=
  let lower := trimmed.map Char.toLower
  if "<pre>".toList.isPrefixOf lower && "</pre>".toList.isSuffixOf (lower.drop 5) then
    let inner := (lower.drop 5).take (lower.length - 11)
    if '<' ∈ inner then none else some ((trimmed.drop 5).take (trimmed.length - 11))
  else none

/-- `html_to_text`. -/
def htmlToText (html : Text) : Text :=
  let trimmed := trim html
  match flatPre trimmed with
  | some inner => decodeEntities inner
  | none => decodeEntities (stripTags .text trimmed)

/-! ## Line breaks -/

/-- A text with every CRLF, CR and LF as one LF. -/
def foldBreaks (text : Text) : Text := replace ['\r'] ['\n'] (replace ['\r', '\n'] ['\n'] text)

/-- A text is empty, begins with a CRLF, with a CR alone, or with another character. -/
theorem breakInduction {motive : Text → Prop} (nil : motive [])
    (crlf : ∀ rest, motive rest → motive ('\r' :: '\n' :: rest))
    (cr : ∀ rest, rest.head? ≠ some '\n' → motive rest → motive ('\r' :: rest))
    (char : ∀ first rest, first ≠ '\r' → motive rest → motive (first :: rest)) :
    ∀ text, motive text
  | [] => nil
  | first :: rest => by
      have later := breakInduction nil crlf cr char rest
      by_cases isReturn : first = '\r'
      · subst isReturn
        by_cases feed : rest.head? = some '\n'
        · obtain ⟨rest, rfl⟩ := List.head?_eq_some_iff.mp feed
          exact crlf rest (breakInduction nil crlf cr char rest)
        · exact cr rest feed later
      · exact char first rest isReturn later
termination_by text => text.length

theorem crlf_not_prefixes (lone : rest.head? ≠ some '\n') : ¬ ['\r', '\n'] <+: '\r' :: rest := by
  rintro ⟨later, same⟩
  obtain ⟨-, rfl⟩ := List.cons.inj same
  exact lone rfl

section Breaks

variable {replacement : Text}

theorem replace_crlf_crlf (rest : Text) : replace ['\r', '\n'] replacement ('\r' :: '\n' :: rest) =
      replacement ++ replace ['\r', '\n'] replacement rest :=
  replace_match '\r' ['\n'] replacement rest

theorem replace_crlf_cr (lone : rest.head? ≠ some '\n') :
    replace ['\r', '\n'] replacement ('\r' :: rest) = '\r' :: replace ['\r', '\n'] replacement rest :=
  replace_cons_of_not_prefix (crlf_not_prefixes lone)

end Breaks

theorem foldBreaks_crlf (rest : Text) : foldBreaks ('\r' :: '\n' :: rest) = '\n' :: foldBreaks rest := by
  rw [foldBreaks, replace_crlf_crlf, List.singleton_append, replace_cons_of_ne (by decide), foldBreaks]

theorem foldBreaks_cr (lone : rest.head? ≠ some '\n') :
    foldBreaks ('\r' :: rest) = '\n' :: foldBreaks rest := by
  rw [foldBreaks, replace_crlf_cr lone]
  exact replace_match '\r' [] ['\n'] _

theorem foldBreaks_cons {first : Char} (notReturn : first ≠ '\r') (rest : Text) :
    foldBreaks (first :: rest) = first :: foldBreaks rest := by
  rw [foldBreaks, replace_cons_of_ne notReturn, replace_cons_of_ne notReturn, foldBreaks]

/-! ## What is stored -/

/-- The entities of `plaintext_to_tuta_html`. -/
def htmlEntities : List (Char × Text) :=
  [('&', "amp;".toList), ('<', "lt;".toList), ('>', "gt;".toList)]

/-- A character of a text without carriage returns, as it is stored. -/
def htmlChar (char : Char) : Text :=
  if char = '\n' then "<br>".toList else entity '&' htmlEntities char

theorem entity_eq_self (ampersand : char ≠ '&') (less : char ≠ '<')
    (greater : char ≠ '>') : entity '&' htmlEntities char = [char] := by
  have plain : htmlEntities.lookup char = none := by
    rw [List.lookup_eq_none_iff]
    simp [htmlEntities, ampersand, less, greater]
  rw [entity, plain]

theorem escape_eq_encoded :
    replace ['>'] "&gt;".toList (replace ['<'] "&lt;".toList (replace ['&'] "&amp;".toList text)) =
      encoded '&' htmlEntities text := by
  rw [replace_singleton, replace_singleton, replace_singleton, List.flatMap_assoc,
    List.flatMap_assoc, encoded]
  refine List.flatMap_congr fun char _ => ?_
  by_cases ampersand : char = '&'
  · subst ampersand
    decide
  · by_cases less : char = '<'
    · subst less
      decide
    · by_cases greater : char = '>'
      · subst greater
        decide
      · rw [entity_eq_self ampersand less greater]
        simp [ampersand, less, greater]

/-- The breaks of an escaped text. -/
def breakLines (text : Text) : Text :=
  replace ['\r'] "<br>".toList (replace ['\n'] "<br>".toList (replace ['\r', '\n'] "<br>".toList text))

theorem breakLines_append {text : Text} (noReturn : '\r' ∉ text) (noFeed : '\n' ∉ text) (rest : Text) :
    breakLines (text ++ rest) = text ++ breakLines rest := by
  rw [breakLines, replace_append_of_not_mem noReturn, replace_append_of_not_mem noFeed,
    replace_append_of_not_mem noReturn, breakLines]

theorem breakLines_crlf (rest : Text) :
    breakLines ('\r' :: '\n' :: rest) = "<br>".toList ++ breakLines rest := by
  rw [breakLines, replace_crlf_crlf, replace_append_of_not_mem (by decide),
    replace_append_of_not_mem (by decide), breakLines]

theorem breakLines_cr (lone : rest.head? ≠ some '\n') :
    breakLines ('\r' :: rest) = "<br>".toList ++ breakLines rest := by
  rw [breakLines, replace_crlf_cr lone, replace_cons_of_ne (by decide)]
  exact replace_match '\r' [] _ _

theorem breakLines_lf (rest : Text) : breakLines ('\n' :: rest) = "<br>".toList ++ breakLines rest := by
  have feed : ∀ later, replace ['\n'] "<br>".toList ('\n' :: later) =
      "<br>".toList ++ replace ['\n'] "<br>".toList later := replace_match '\n' [] _
  rw [breakLines, replace_cons_of_ne (by decide), feed, replace_append_of_not_mem (by decide), breakLines]

/-- An entity has no line break unless it is one. -/
theorem not_mem_entity {char other : Char} (different : char ≠ other)
    (absent : ∀ row ∈ htmlEntities, other ∉ '&' :: row.2) : other ∉ entity '&' htmlEntities char := by
  rw [entity]
  cases found : htmlEntities.lookup char with
  | none => simpa using Ne.symm different
  | some name =>
    obtain ⟨before, after, same, -⟩ := List.lookup_eq_some_iff.mp found
    refine absent (char, name) ?_
    rw [same]
    exact List.mem_append_right _ List.mem_cons_self

theorem head?_encoded (lone : rest.head? ≠ some '\n') :
    (encoded '&' htmlEntities rest).head? ≠ some '\n' := by
  cases rest with
  | nil => exact lone
  | cons char rest =>
    have different : char ≠ '\n' := by
      rintro rfl
      exact lone rfl
    have absent := not_mem_entity different (by decide)
    rw [encoded, List.flatMap_cons, List.head?_append]
    cases found : entity '&' htmlEntities char with
    | nil =>
      rw [entity] at found
      split at found <;> cases found
    | cons first later =>
      rw [found] at absent
      rw [List.head?_cons, Option.some_or]
      rintro same
      exact absent (Option.some.inj same ▸ List.mem_cons_self)

/-- A text is stored character by character, once its line breaks are folded. -/
theorem plaintextToTutaHtml_eq : plaintextToTutaHtml text = (foldBreaks text).flatMap htmlChar := by
  rw [plaintextToTutaHtml, escape_eq_encoded, ← breakLines]
  have entityReturn : entity '&' htmlEntities '\r' = ['\r'] := by decide
  have entityFeed : entity '&' htmlEntities '\n' = ['\n'] := by decide
  have feedChar : htmlChar '\n' = "<br>".toList := rfl
  induction text using breakInduction with
  | nil => rfl
  | crlf rest ih =>
    rw [encoded, List.flatMap_cons, List.flatMap_cons, ← encoded, entityReturn, entityFeed,
      List.singleton_append, List.singleton_append, breakLines_crlf, ih,
      foldBreaks_crlf, List.flatMap_cons, feedChar]
  | cr rest lone ih =>
    rw [encoded, List.flatMap_cons, ← encoded, entityReturn, List.singleton_append,
      breakLines_cr (head?_encoded lone), ih, foldBreaks_cr lone,
      List.flatMap_cons, feedChar]
  | char first rest notReturn ih =>
    rw [encoded, List.flatMap_cons, ← encoded, foldBreaks_cons notReturn, List.flatMap_cons]
    by_cases isFeed : first = '\n'
    · rw [isFeed, entityFeed, List.singleton_append, breakLines_lf, ih, feedChar]
    · rw [breakLines_append (not_mem_entity notReturn (by decide))
        (not_mem_entity isFeed (by decide)), ih, htmlChar, if_neg isFeed]

/-! ## What is read back -/

/-- A character that is trimmed from the edge of what is stored. -/
def isTrimmed (char : Char) : Bool := isWhitespace char && char ≠ '\n'

/-- A text without the white space at its edges, line feeds apart. -/
def trimBlanks (text : Text) : Text := (text.dropWhile isTrimmed).rdropWhile isTrimmed

theorem dropWhile_flatMap {stored : Char → Text} {text : Text}
    (trimmed : ∀ char, isTrimmed char = true → stored char = [char])
    (kept : ∀ char, isTrimmed char = false → ∃ first later, stored char = first :: later ∧ isWhitespace first = false) :
    (text.flatMap stored).dropWhile isWhitespace = (text.dropWhile isTrimmed).flatMap stored := by
  induction text with
  | nil => rfl
  | cons char rest ih =>
    rw [List.flatMap_cons]
    cases blank : isTrimmed char with
    | true =>
      have white : isWhitespace char = true := by
        rw [isTrimmed, Bool.and_eq_true] at blank
        exact blank.1
      rw [trimmed char blank, List.singleton_append, List.dropWhile_cons_of_pos white,
        List.dropWhile_cons_of_pos blank, ih]
    | false =>
      obtain ⟨first, later, shape, visible⟩ := kept char blank
      rw [List.dropWhile_cons_of_neg (by simp [blank]), List.flatMap_cons, shape,
        List.cons_append, List.dropWhile_cons_of_neg (by simp [visible])]

theorem htmlChar_of_isTrimmed (blank : isTrimmed char = true) : htmlChar char = [char] := by
  simp only [isTrimmed, Bool.and_eq_true, decide_eq_true_eq] at blank
  rw [htmlChar, if_neg blank.2, entity_eq_self]
  all_goals
    rintro rfl
    exact absurd blank.1 (by decide)

/-- What is stored of another character shows at both ends. -/
theorem htmlChar_of_not_isTrimmed (kept : isTrimmed char = false) :
    (∃ first later, htmlChar char = first :: later ∧ isWhitespace first = false) ∧
      ∃ before last, htmlChar char = before ++ [last] ∧ isWhitespace last = false := by
  rw [htmlChar]
  by_cases feed : char = '\n'
  · subst feed
    exact ⟨⟨_, _, rfl, by decide⟩, "<br".toList, '>', by decide, by decide⟩
  · have visible : isWhitespace char = false := by
      simpa [isTrimmed, feed] using kept
    rw [if_neg feed]
    by_cases ampersand : char = '&'
    · subst ampersand
      exact ⟨⟨_, _, rfl, by decide⟩, "&amp".toList, ';', by decide, by decide⟩
    · by_cases less : char = '<'
      · subst less
        exact ⟨⟨_, _, rfl, by decide⟩, "&lt".toList, ';', by decide, by decide⟩
      · by_cases greater : char = '>'
        · subst greater
          exact ⟨⟨_, _, rfl, by decide⟩, "&gt".toList, ';', by decide, by decide⟩
        · rw [entity_eq_self ampersand less greater]
          exact ⟨⟨char, [], rfl, visible⟩, [], char, rfl, visible⟩

/-- Trimming what is stored trims the text, line feeds apart. -/
theorem trim_flatMap_htmlChar : trim (text.flatMap htmlChar) = (trimBlanks text).flatMap htmlChar := by
  rw [trim, dropWhile_flatMap (fun _ => htmlChar_of_isTrimmed)
    (fun _ kept => (htmlChar_of_not_isTrimmed kept).1), trimBlanks, List.rdropWhile,
    List.reverse_flatMap, dropWhile_flatMap, List.reverse_flatMap, List.rdropWhile]
  · refine List.flatMap_congr fun char _ => ?_
    rw [Function.comp_apply, Function.comp_apply, List.reverse_reverse]
  · intro char blank
    rw [Function.comp_apply, htmlChar_of_isTrimmed blank, List.reverse_singleton]
  · intro char kept
    obtain ⟨before, last, shape, visible⟩ := (htmlChar_of_not_isTrimmed kept).2
    refine ⟨last, before.reverse, ?_, visible⟩
    rw [Function.comp_apply, shape, List.reverse_append, List.reverse_singleton, List.singleton_append]

theorem ne_less_of_toLower (different : char ≠ '<') : char.toLower ≠ '<' :=
  fun same => different (eq_of_toLower (by decide) (by decide) same)

/-- What is stored is never one `<pre>` block. -/
theorem flatPre_flatMap_htmlChar : flatPre (text.flatMap htmlChar) = none := by
  have noBlock : "<pre>".toList.isPrefixOf ((text.flatMap htmlChar).map Char.toLower) = false := by
    cases text with
    | nil => rfl
    | cons char rest =>
      rw [List.flatMap_cons, List.map_append]
      by_cases feed : char = '\n'
      · subst feed
        rfl
      · obtain ⟨first, later, shape, notLess⟩ :
            ∃ first later, htmlChar char = first :: later ∧ first ≠ '<' := by
          rw [htmlChar, if_neg feed, entity]
          cases found : htmlEntities.lookup char with
          | some name => exact ⟨'&', name, rfl, by decide⟩
          | none =>
            refine ⟨char, [], rfl, ?_⟩
            rintro rfl
            cases found
        have different : '<' ≠ first.toLower := (ne_less_of_toLower notLess).symm
        rw [shape, List.map_cons, List.cons_append]
        show ('<' == first.toLower && _) = false
        rw [beq_eq_false_iff_ne.mpr different, Bool.false_and]
  rw [flatPre, noBlock, Bool.false_and, if_neg Bool.false_ne_true]

theorem stripTags_append {text : Text} (noTag : '<' ∉ text) (rest : Text) :
    stripTags .text (text ++ rest) = text ++ stripTags .text rest := by
  induction text with
  | nil => rfl
  | cons char text ih =>
    obtain ⟨different, later⟩ := not_or.mp (mt List.mem_cons.mpr noTag)
    rw [List.cons_append, stripTags, if_neg (Ne.symm different), ih later, List.cons_append]

/-- Stripping the tags of what is stored leaves the entities and the line feeds. -/
theorem stripTags_flatMap_htmlChar :
    stripTags .text (text.flatMap htmlChar) = encoded '&' htmlEntities text := by
  induction text with
  | nil => rfl
  | cons char rest ih =>
    rw [encoded, List.flatMap_cons, List.flatMap_cons, ← encoded, ← ih]
    by_cases feed : char = '\n'
    · subst feed
      rfl
    · rw [htmlChar, if_neg feed, stripTags_append]
      by_cases less : char = '<'
      · subst less
        decide
      · exact not_mem_entity less (by decide)

/-- One step of `decode_entities` on a text with entities. -/
theorem replace_entity {pattern name replacement : Text} {names left : List (Char × Text)}
    (isEntity : pattern = '&' :: name) (decodes : Decodes '&' names name replacement)
    (same : without name names = left) (text : Text) :
    replace pattern replacement (encoded '&' names text) = encoded '&' left text := by
  rw [isEntity, replace_encoded decodes, same]

/-- Entities are read back as the characters they stand for, `&amp;` last. -/
theorem decodeEntities_encoded : decodeEntities (encoded '&' htmlEntities text) = text := by
  have nbsp := @replace_entity "&nbsp;".toList "nbsp;".toList [' '] htmlEntities htmlEntities
    (by decide) (by constructor <;> decide) (by decide) text
  have less := @replace_entity "&lt;".toList "lt;".toList ['<'] htmlEntities
    [('&', "amp;".toList), ('>', "gt;".toList)]
    (by decide) (by constructor <;> decide) (by decide) text
  have greater := @replace_entity "&gt;".toList "gt;".toList ['>']
    [('&', "amp;".toList), ('>', "gt;".toList)] [('&', "amp;".toList)]
    (by decide) (by constructor <;> decide) (by decide) text
  have unknown : ∀ pattern name replacement, pattern = '&' :: name →
      Decodes '&' [('&', "amp;".toList)] name replacement →
      without name [('&', "amp;".toList)] = [('&', "amp;".toList)] →
      replace pattern replacement (encoded '&' [('&', "amp;".toList)] text) =
        encoded '&' [('&', "amp;".toList)] text :=
    fun _ _ _ isEntity decodes same => replace_entity isEntity decodes same text
  have ampersand := @replace_entity "&amp;".toList "amp;".toList ['&'] [('&', "amp;".toList)] []
    (by decide) (by constructor <;> decide) (by decide) text
  rw [decodeEntities, nbsp, less, greater,
    unknown "&quot;".toList "quot;".toList ['"'] (by decide) (by constructor <;> decide) (by decide),
    unknown "&#39;".toList "#39;".toList "'".toList (by decide) (by constructor <;> decide) (by decide),
    unknown "&apos;".toList "apos;".toList "'".toList (by decide) (by constructor <;> decide) (by decide),
    ampersand, encoded_nil]

/-- A stored text is read back with its line breaks folded and without the white space at
its edges. -/
theorem htmlToText_plaintextToTutaHtml :
    htmlToText (plaintextToTutaHtml text) = trimBlanks (foldBreaks text) := by
  rw [htmlToText, plaintextToTutaHtml_eq, trim_flatMap_htmlChar, flatPre_flatMap_htmlChar]
  dsimp only
  rw [stripTags_flatMap_htmlChar, decodeEntities_encoded]

/-! ## What is lost -/

theorem trimBlanks_eq_self_iff {text : Text} : trimBlanks text = text ↔
      (∀ char ∈ text.head?, isTrimmed char = false) ∧ ∀ char ∈ text.getLast?, isTrimmed char = false :=
  dropWhile_rdropWhile_eq_self_iff

/-- The line feed that a break becomes. -/
def folded (char : Char) : Char := if char = '\r' then '\n' else char

theorem head?_foldBreaks : (foldBreaks text).head? = text.head?.map folded := by
  induction text using breakInduction with
  | nil => rfl
  | crlf rest => rw [foldBreaks_crlf]; rfl
  | cr rest lone => rw [foldBreaks_cr lone]; rfl
  | char first rest notReturn =>
    rw [foldBreaks_cons notReturn, List.head?_cons, List.head?_cons, Option.map_some, folded,
      if_neg notReturn]

theorem getLast?_foldBreaks : (foldBreaks text).getLast? = text.getLast?.map folded := by
  induction text using breakInduction with
  | nil => rfl
  | crlf rest ih =>
    rw [foldBreaks_crlf, List.getLast?_cons, ih, List.getLast?_cons, List.getLast?_cons]
    cases rest.getLast? <;> rfl
  | cr rest lone ih =>
    rw [foldBreaks_cr lone, List.getLast?_cons, ih, List.getLast?_cons]
    cases rest.getLast? <;> rfl
  | char first rest notReturn ih =>
    rw [foldBreaks_cons notReturn, List.getLast?_cons, ih, List.getLast?_cons]
    cases rest.getLast? with
    | none =>
      show some first = some (folded first)
      rw [folded, if_neg notReturn]
    | some last => rfl

/-- White space that is no line break. -/
def isBlank (char : Char) : Bool := isWhitespace char && char ≠ '\r' && char ≠ '\n'

theorem isTrimmed_folded (char : Char) : isTrimmed (folded char) = isBlank char := by
  rw [isTrimmed, folded, isBlank]
  by_cases isReturn : char = '\r'
  · subst isReturn
    decide
  · simp [isReturn]

theorem forall_folded {found : Option Char} :
    (∀ char ∈ found.map folded, isTrimmed char = false) ↔ ∀ char ∈ found, isBlank char = false := by
  cases found with
  | none => simp
  | some char => simp [isTrimmed_folded]

/-- A plain text comes back with one line feed for each line break exactly when it neither
begins nor ends with white space other than a line break. -/
theorem htmlToText_plaintextToTutaHtml_iff (text : Text) : htmlToText (plaintextToTutaHtml text) = foldBreaks text ↔
      (∀ char ∈ text.head?, isBlank char = false) ∧ ∀ char ∈ text.getLast?, isBlank char = false := by
  rw [htmlToText_plaintextToTutaHtml, trimBlanks_eq_self_iff, head?_foldBreaks, getLast?_foldBreaks,
    forall_folded, forall_folded]

/-- A context line of a patch loses the blank it begins with. -/
theorem htmlToText_leading_blank : htmlToText (plaintextToTutaHtml " a\n".toList) = "a\n".toList ∧
      foldBreaks " a\n".toList = " a\n".toList := by
  decide +kernel

end TutaBridge.Mail
