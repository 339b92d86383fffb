import TutaBridge.Std.Text

/-!
# The query language of FTS5

An expression of SQLite's full-text search is read as tokens and the tokens by a grammar. A run of
ASCII letters, digits and characters beyond ASCII is a string, unless it is one of the three
words that are operators. A star makes the string before it a prefix, and stands nowhere else.
-/

namespace TutaBridge.Std.Fts5

variable {read : List Token}

/-! ## Tokens -/

inductive Token where
  | string (text : Text)
  | and
  | or
  | not
  | star
  | plus
  | minus
  | caret
  | colon
  | comma
  | leftParen
  | rightParen
  | leftBrace
  | rightBrace
deriving DecidableEq, Repr

/-- A character of a bareword. -/
def isBareword (char : Char) : Bool :=
  char.isAlphanum || char = '_' || char.toNat = 0x1A || 128 ≤ char.toNat

def isBlank (char : Char) : Bool := char = ' ' || char = '\t' || char = '\n' || char = '\r'

/-- The characters that are tokens of their own. -/
def symbols : List (Char × Token) :=
  [('*', .star), ('+', .plus), ('-', .minus), ('^', .caret), (':', .colon), (',', .comma),
    ('(', .leftParen), (')', .rightParen), (Char.ofNat 0x7B, .leftBrace), (Char.ofNat 0x7D, .rightBrace)]

/-- The barewords that are operators. -/
def operators : List (Text × Token) :=
  [("AND".toList, .and), ("OR".toList, .or), ("NOT".toList, .not)]

/-- The token of a bareword. -/
def barewordToken (word : Text) : Token := (operators.lookup word).getD (.string word)

/-- What is being read; `closing` behind a quote that may be doubled. -/
inductive Reading where
  | between
  | bareword (read : Text)
  | quoted (read : Text)
  | closing (read : Text)

/-- The character that a token begins with. -/
def begin (char : Char) : Option (List Token × Reading) :=
  if isBlank char then some ([], .between)
  else if char = '"' then some ([], .quoted [])
  else if isBareword char then some ([], .bareword [char])
  else (symbols.lookup char).map fun token => ([token], .between)

/-- The next character: the tokens it ends or is, and what is read then. -/
def next (reading : Reading) (char : Char) : Option (List Token × Reading) :=
  match reading with
  | .between => begin char
  | .bareword read =>
    if isBareword char then some ([], .bareword (read ++ [char]))
    else (begin char).map fun begun => (barewordToken read :: begun.1, begun.2)
  | .quoted read =>
    if char = '"' then some ([], .closing read) else some ([], .quoted (read ++ [char]))
  | .closing read =>
    if char = '"' then some ([], .quoted (read ++ ['"']))
    else (begin char).map fun begun => (.string read :: begun.1, begun.2)

/-- The tokens of an expression. -/
def tokens : Reading → Text → Option (List Token)
  | .between, [] => some []
  | .bareword read, [] => some [barewordToken read]
  | .quoted _, [] => none
  | .closing read, [] => some [.string read]
  | reading, char :: rest =>
    (next reading char).bind fun read => (tokens read.2 rest).map (read.1 ++ ·)

/-! ## The grammar -/

/-- A string of a phrase, and whether it is a prefix. -/
structure Term where
  text : Text
  isPrefix : Bool
deriving DecidableEq, Repr

abbrev Phrase := List Term

/-- Phrases near each other. One phrase may have to stand at the start of its column. -/
inductive Nearset where
  | phrase (initial : Bool) (phrase : Phrase)
  | near (phrases : List Phrase) (distance : Option Text)
deriving DecidableEq, Repr

structure Columns where
  isExcluded : Bool
  names : List Text
deriving DecidableEq, Repr

structure Condition where
  columns : Option Columns
  nearset : Nearset
deriving DecidableEq, Repr

inductive Query where
  | conjunction (conditions : List Condition)
  | within (columns : Columns) (query : Query)
  | and (left right : Query)
  | or (left right : Query)
  | not (left right : Query)
deriving DecidableEq, Repr

def starOption (isPrefix : Bool) : List Token := if isPrefix then [.star] else []

inductive IsPhrase : List Token → Phrase → Prop where
  | single (text : Text) (isPrefix : Bool) :
      IsPhrase (.string text :: starOption isPrefix) [⟨text, isPrefix⟩]
  | plus {before : List Token} {phrase : Phrase} (first : IsPhrase before phrase) (text : Text)
      (isPrefix : Bool) :
      IsPhrase (before ++ .plus :: .string text :: starOption isPrefix) (phrase ++ [⟨text, isPrefix⟩])

inductive ArePhrases : List Token → List Phrase → Prop where
  | single {read : List Token} {phrase : Phrase} (isPhrase : IsPhrase read phrase) : ArePhrases read [phrase]
  | more {before read : List Token} {phrases : List Phrase} {phrase : Phrase}
      (first : ArePhrases before phrases) (isPhrase : IsPhrase read phrase) :
      ArePhrases (before ++ read) (phrases ++ [phrase])

def distanceOption : Option Text → List Token
  | none => []
  | some distance => [.comma, .string distance]

inductive IsNearset : List Token → Nearset → Prop where
  | phrase {read : List Token} {phrase : Phrase} (isPhrase : IsPhrase read phrase) :
      IsNearset read (.phrase false phrase)
  | caret {read : List Token} {phrase : Phrase} (isPhrase : IsPhrase read phrase) :
      IsNearset (.caret :: read) (.phrase true phrase)
  | near (name : Text) {read : List Token} {phrases : List Phrase} (arePhrases : ArePhrases read phrases)
      (distance : Option Text) :
      IsNearset (.string name :: .leftParen :: (read ++ distanceOption distance ++ [.rightParen]))
        (.near phrases distance)

/-- The names of columns, one alone or several in braces. -/
inductive AreNames : List Token → List Text → Prop where
  | single (name : Text) : AreNames [.string name] [name]
  | braces (names : List Text) (notEmpty : names ≠ []) :
      AreNames (.leftBrace :: (names.map Token.string ++ [.rightBrace])) names

inductive AreColumns : List Token → Columns → Prop where
  | named {read : List Token} {names : List Text} (areNames : AreNames read names) :
      AreColumns read ⟨false, names⟩
  | excluded {read : List Token} {names : List Text} (areNames : AreNames read names) :
      AreColumns (.minus :: read) ⟨true, names⟩

inductive IsCondition : List Token → Condition → Prop where
  | anywhere {read : List Token} {nearset : Nearset} (isNearset : IsNearset read nearset) :
      IsCondition read ⟨none, nearset⟩
  | within {before read : List Token} {columns : Columns} {nearset : Nearset}
      (areColumns : AreColumns before columns) (isNearset : IsNearset read nearset) :
      IsCondition (before ++ .colon :: read) ⟨some columns, nearset⟩

/-- Conditions without an operator between them are a conjunction. -/
inductive AreConditions : List Token → List Condition → Prop where
  | single {read : List Token} {condition : Condition} (isCondition : IsCondition read condition) :
      AreConditions read [condition]
  | more {before read : List Token} {conditions : List Condition} {condition : Condition}
      (first : AreConditions before conditions) (isCondition : IsCondition read condition) :
      AreConditions (before ++ read) (conditions ++ [condition])

/-- What tokens mean. Which operator binds stronger is left open. -/
inductive IsQuery : List Token → Query → Prop where
  | conjunction {read : List Token} {conditions : List Condition}
      (areConditions : AreConditions read conditions) : IsQuery read (.conjunction conditions)
  | and {left right : List Token} {first second : Query} (isFirst : IsQuery left first)
      (isSecond : IsQuery right second) : IsQuery (left ++ .and :: right) (.and first second)
  | or {left right : List Token} {first second : Query} (isFirst : IsQuery left first)
      (isSecond : IsQuery right second) : IsQuery (left ++ .or :: right) (.or first second)
  | not {left right : List Token} {first second : Query} (isFirst : IsQuery left first)
      (isSecond : IsQuery right second) : IsQuery (left ++ .not :: right) (.not first second)
  | parens {read : List Token} {query : Query} (isQuery : IsQuery read query) :
      IsQuery (.leftParen :: (read ++ [.rightParen])) query
  | within {before read : List Token} {columns : Columns} {query : Query}
      (areColumns : AreColumns before columns) (isQuery : IsQuery read query) :
      IsQuery (before ++ .colon :: .leftParen :: (read ++ [.rightParen])) (.within columns query)

/-- An expression that is read as a query. An expression that is read as none is a syntax error. -/
def Parses (expression : Text) (query : Query) : Prop :=
  ∃ read, tokens .between expression = some read ∧ IsQuery read query

/-! ## Stars -/

/-- Every star stands behind a string. -/
def StarsFollow (read : List Token) : Prop :=
  ∀ before after, read = before ++ .star :: after → ∃ earlier text, before = earlier ++ [.string text]

theorem starsFollow_nil : StarsFollow [] := by
  intro before after same
  cases before <;> cases same

theorem starsFollow_singleton {token : Token} (noStar : token ≠ .star) : StarsFollow [token] := by
  intro before after same
  cases before with
  | nil => exact absurd (List.cons.inj same).1 noStar
  | cons head rest =>
    obtain ⟨-, none⟩ := List.cons.inj same
    exact absurd none.symm (by simp)

theorem starsFollow_append {first second : List Token} (inFirst : StarsFollow first)
    (inSecond : StarsFollow second) : StarsFollow (first ++ second) := by
  intro before after same
  rcases List.append_eq_append_iff.mp same with ⟨front, rfl, isSecond⟩ | ⟨back, isFirst, isRest⟩
  · obtain ⟨earlier, text, rfl⟩ := inSecond front after isSecond
    exact ⟨first ++ earlier, text, by rw [List.append_assoc]⟩
  · cases back with
    | nil =>
      obtain ⟨earlier, text, none⟩ := inSecond [] after isRest.symm
      exact absurd none (by simp)
    | cons head rest =>
      obtain ⟨rfl, -⟩ := List.cons.inj isRest
      exact inFirst before rest isFirst

theorem starsFollow_cons {token : Token} (noStar : token ≠ .star)
    (inRead : StarsFollow read) : StarsFollow (token :: read) :=
  starsFollow_append (starsFollow_singleton noStar) inRead

theorem starsFollow_string (text : Text) (isPrefix : Bool) : StarsFollow (.string text :: starOption isPrefix) := by
  cases isPrefix with
  | false => exact starsFollow_singleton Token.noConfusion
  | true =>
    intro before after same
    cases before with
    | nil => exact Token.noConfusion (List.cons.inj same).1
    | cons head rest =>
      obtain ⟨rfl, isStar⟩ := List.cons.inj same
      have alone : rest = [] := by
        cases rest with
        | nil => rfl
        | cons next rest => exact absurd (List.cons.inj isStar).2 (by simp)
      exact ⟨[], text, by rw [alone, List.nil_append]⟩

theorem IsPhrase.starsFollow {phrase : Phrase} (isPhrase : IsPhrase read phrase) :
    StarsFollow read := by
  induction isPhrase with
  | single text isPrefix => exact starsFollow_string text isPrefix
  | plus first text isPrefix ih =>
    exact starsFollow_append ih (starsFollow_cons Token.noConfusion (starsFollow_string text isPrefix))

theorem ArePhrases.starsFollow {phrases : List Phrase}
    (arePhrases : ArePhrases read phrases) : StarsFollow read := by
  induction arePhrases with
  | single isPhrase => exact isPhrase.starsFollow
  | more first isPhrase ih =>
    exact starsFollow_append ih isPhrase.starsFollow

theorem IsNearset.starsFollow {nearset : Nearset} (isNearset : IsNearset read nearset) :
    StarsFollow read := by
  cases isNearset with
  | phrase isPhrase => exact isPhrase.starsFollow
  | caret isPhrase => exact starsFollow_cons Token.noConfusion isPhrase.starsFollow
  | near name arePhrases distance =>
    have isDistance : StarsFollow (distanceOption distance) := by
      cases distance with
      | none => exact starsFollow_nil
      | some distance =>
        exact starsFollow_cons Token.noConfusion (starsFollow_singleton Token.noConfusion)
    exact starsFollow_cons Token.noConfusion (starsFollow_cons Token.noConfusion
      (starsFollow_append (starsFollow_append arePhrases.starsFollow isDistance)
        (starsFollow_singleton Token.noConfusion)))

theorem AreColumns.starsFollow {columns : Columns} (areColumns : AreColumns read columns) :
    StarsFollow read := by
  have strings : ∀ names : List Text, StarsFollow (names.map Token.string) := by
    intro names
    induction names with
    | nil => exact starsFollow_nil
    | cons name rest ih => exact starsFollow_cons Token.noConfusion ih
  have names : ∀ {read : List Token} {names : List Text}, AreNames read names → StarsFollow read := by
    intro read names areNames
    cases areNames with
    | single name => exact starsFollow_singleton Token.noConfusion
    | braces names notEmpty =>
      exact starsFollow_cons Token.noConfusion
        (starsFollow_append (strings names) (starsFollow_singleton Token.noConfusion))
  cases areColumns with
  | named areNames => exact names areNames
  | excluded areNames => exact starsFollow_cons Token.noConfusion (names areNames)

theorem IsCondition.starsFollow {condition : Condition}
    (isCondition : IsCondition read condition) : StarsFollow read := by
  cases isCondition with
  | anywhere isNearset => exact isNearset.starsFollow
  | within areColumns isNearset =>
    exact starsFollow_append areColumns.starsFollow (starsFollow_cons Token.noConfusion isNearset.starsFollow)

theorem AreConditions.starsFollow {conditions : List Condition}
    (areConditions : AreConditions read conditions) : StarsFollow read := by
  induction areConditions with
  | single isCondition => exact isCondition.starsFollow
  | more first isCondition ih =>
    exact starsFollow_append ih isCondition.starsFollow

/-- In a query every star stands behind a string. -/
theorem IsQuery.starsFollow {query : Query} (isQuery : IsQuery read query) : StarsFollow read := by
  induction isQuery with
  | conjunction areConditions => exact areConditions.starsFollow
  | and isFirst isSecond inFirst inSecond =>
    exact starsFollow_append inFirst (starsFollow_cons Token.noConfusion inSecond)
  | or isFirst isSecond inFirst inSecond =>
    exact starsFollow_append inFirst (starsFollow_cons Token.noConfusion inSecond)
  | not isFirst isSecond inFirst inSecond =>
    exact starsFollow_append inFirst (starsFollow_cons Token.noConfusion inSecond)
  | parens isQuery inQuery =>
    exact starsFollow_cons Token.noConfusion
      (starsFollow_append inQuery (starsFollow_singleton Token.noConfusion))
  | within areColumns isQuery inQuery =>
    exact starsFollow_append areColumns.starsFollow (starsFollow_cons Token.noConfusion
      (starsFollow_cons Token.noConfusion
        (starsFollow_append inQuery (starsFollow_singleton Token.noConfusion))))

/-! ## Prefixes alone -/

/-- The tokens of words that are each a prefix. -/
def prefixTokens (words : List Text) : List Token := words.flatMap fun word => [.string word, .star]

/-- The condition that a word of the text begins with a word. -/
def prefixCondition (word : Text) : Condition := ⟨none, .phrase false [⟨word, true⟩]⟩

/-- Tokens among which there are only strings and stars. -/
def Plain (read : List Token) : Prop := ∀ token ∈ read, token = .star ∨ ∃ text, token = .string text

theorem plain_prefixTokens (words : List Text) : Plain (prefixTokens words) := by
  intro token mem
  obtain ⟨word, -, inWord⟩ := List.mem_flatMap.mp mem
  simp only [List.mem_cons, List.not_mem_nil, or_false] at inWord
  exact inWord.elim (fun isString => .inr ⟨word, isString⟩) .inl

theorem Plain.append {first second : List Token} (plain : Plain (first ++ second)) : Plain first ∧ Plain second :=
  List.forall_mem_append.mp plain

/-- A token that is neither a string nor a star is not among them. -/
theorem Plain.not_mem (plain : Plain read) {token : Token} (noStar : token ≠ .star)
    (noString : ∀ text, token ≠ .string text) : token ∉ read := by
  intro mem
  rcases plain token mem with isStar | ⟨text, isString⟩
  · exact noStar isStar
  · exact noString text isString

/-- A condition of strings and stars alone is one string. -/
theorem IsCondition.single {condition : Condition}
    (isCondition : IsCondition read condition) (plain : Plain read) :
    ∃ text isPrefix, read = .string text :: starOption isPrefix ∧
      condition = ⟨none, .phrase false [⟨text, isPrefix⟩]⟩ := by
  cases isCondition with
  | within areColumns isNearset =>
    exact absurd (List.mem_append_right _ List.mem_cons_self)
      (plain.not_mem Token.noConfusion fun _ => Token.noConfusion)
  | anywhere isNearset =>
    cases isNearset with
    | caret isPhrase =>
      exact absurd List.mem_cons_self (plain.not_mem Token.noConfusion fun _ => Token.noConfusion)
    | near name arePhrases distance =>
      exact absurd (List.mem_cons_of_mem _ List.mem_cons_self)
        (plain.not_mem Token.noConfusion fun _ => Token.noConfusion)
    | phrase isPhrase =>
      cases isPhrase with
      | single text isPrefix => exact ⟨text, isPrefix, rfl, rfl⟩
      | plus first text isPrefix =>
        exact absurd (List.mem_append_right _ List.mem_cons_self)
          (plain.not_mem Token.noConfusion fun _ => Token.noConfusion)

/-- The last of the conditions takes the last of the words. -/
theorem AreConditions.prefixes {conditions : List Condition}
    (areConditions : AreConditions read conditions) {words : List Text} (isRead : read = prefixTokens words) :
    conditions = words.map prefixCondition := by
  have plain : Plain read := isRead ▸ plain_prefixTokens words
  have last : ∀ {before : List Token} {text : Text} {isPrefix : Bool} {words : List Text},
      before ++ .string text :: starOption isPrefix = prefixTokens words →
        ∃ earlier, words = earlier ++ [text] ∧ isPrefix = true ∧ before = prefixTokens earlier := by
    intro before text isPrefix words same
    rcases List.eq_nil_or_concat' words with rfl | ⟨earlier, word, rfl⟩
    · exact absurd same (by simp [prefixTokens])
    · have isLast : prefixTokens (earlier ++ [word]) = prefixTokens earlier ++ [.string word] ++ [.star] := by
        simp [prefixTokens]
      rw [isLast] at same
      cases isPrefix with
      | false => cases (List.append_inj' same rfl).2
      | true =>
        have grouped : before ++ [.string text] ++ [.star] = prefixTokens earlier ++ [.string word] ++ [.star] := by
          rw [← same]
          simp [starOption]
        obtain ⟨front, -⟩ := List.append_inj' grouped rfl
        obtain ⟨isBefore, isWord⟩ := List.append_inj' front rfl
        cases isWord
        exact ⟨earlier, rfl, rfl, isBefore⟩
  induction areConditions generalizing words with
  | single isCondition =>
    obtain ⟨text, isPrefix, rfl, rfl⟩ := isCondition.single plain
    obtain ⟨earlier, rfl, rfl, isEmpty⟩ := @last [] text isPrefix words isRead
    have none : earlier = [] := by
      cases earlier with
      | nil => rfl
      | cons word rest => cases isEmpty
    rw [none]
    rfl
  | more first isCondition ih =>
    obtain ⟨plainFirst, plainLast⟩ := plain.append
    obtain ⟨text, isPrefix, rfl, rfl⟩ := isCondition.single plainLast
    obtain ⟨earlier, rfl, rfl, isBefore⟩ := last isRead
    rw [ih isBefore plainFirst, List.map_append]
    rfl

/-- Words that are each a prefix are read as the conjunction of their conditions alone. -/
theorem isQuery_prefixTokens_iff {words : List Text} (notEmpty : words ≠ []) {query : Query} :
    IsQuery (prefixTokens words) query ↔ query = .conjunction (words.map prefixCondition) := by
  constructor
  · intro isQuery
    have plain := plain_prefixTokens words
    generalize isRead : prefixTokens words = read at isQuery plain
    have none : ∀ token, token ≠ .star → (∀ text, token ≠ .string text) → token ∉ read :=
      fun token => plain.not_mem
    cases isQuery with
    | conjunction areConditions => rw [areConditions.prefixes isRead.symm]
    | and isFirst isSecond =>
      exact absurd (List.mem_append_right _ List.mem_cons_self)
        (none .and Token.noConfusion fun _ => Token.noConfusion)
    | or isFirst isSecond =>
      exact absurd (List.mem_append_right _ List.mem_cons_self)
        (none .or Token.noConfusion fun _ => Token.noConfusion)
    | not isFirst isSecond =>
      exact absurd (List.mem_append_right _ List.mem_cons_self)
        (none .not Token.noConfusion fun _ => Token.noConfusion)
    | parens isQuery =>
      exact absurd List.mem_cons_self (none .leftParen Token.noConfusion fun _ => Token.noConfusion)
    | within areColumns isQuery =>
      exact absurd (List.mem_append_right _ List.mem_cons_self)
        (none .colon Token.noConfusion fun _ => Token.noConfusion)
  · rintro rfl
    refine .conjunction ?_
    have one : ∀ word : Text, IsCondition [.string word, .star] (prefixCondition word) := fun word =>
      .anywhere (.phrase (.single word true))
    induction words using List.reverseRecOn with
    | nil => exact absurd rfl notEmpty
    | append_singleton earlier word ih =>
      have isLast : prefixTokens (earlier ++ [word]) = prefixTokens earlier ++ [.string word, .star] := by
        simp [prefixTokens]
      rw [isLast, List.map_append, List.map_singleton]
      rcases List.eq_nil_or_concat' earlier with rfl | ⟨front, last, rfl⟩
      · exact .single (one word)
      · exact .more (ih (List.concat_ne_nil last front)) (one word)

end TutaBridge.Std.Fts5
