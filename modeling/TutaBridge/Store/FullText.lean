import TutaBridge.Std.Fts5

/-!
# Full-text terms

`fts_match_expr` makes an expression of a search term: every run of alphanumeric characters is a
prefix to be found. Three runs are operators to FTS5, and an expression with one of them is a
syntax error.
-/

namespace TutaBridge.Store

open TutaBridge.Std TutaBridge.Std.Fts5

/-- `char::is_alphanumeric`, of which only the ASCII part is fixed here. -/
structure Alphanumeric where
  isAlphanumeric : Char → Bool
  ascii : ∀ char, char.toNat < 128 → isAlphanumeric char = char.isAlphanum

/-- The letters and digits of ASCII alone. -/
def Alphanumeric.asciiOnly : Alphanumeric := ⟨Char.isAlphanum, fun _ _ => rfl⟩

section Expression

variable (kinds : Alphanumeric)

/-- The runs of alphanumeric characters. -/
def alphanumericRuns (term : Text) : List Text :=
  (term.splitOnP fun char => !kinds.isAlphanumeric char).filter (· ≠ [])

/-- `fts_match_expr`. -/
def ftsMatchExpr (term : Text) : Text :=
  [' '].intercalate ((alphanumericRuns kinds term).map fun word => word ++ ['*'])

/-- What an expression is to be: empty where nothing is to be found, and else a conjunction of a
prefix for every run, and nothing else. -/
structure IsConjunction (term : Text) : Prop where
  isEmpty : ftsMatchExpr kinds term = [] ↔ ∀ char ∈ term, kinds.isAlphanumeric char = false
  parses : ftsMatchExpr kinds term ≠ [] → ∀ query, Parses (ftsMatchExpr kinds term) query ↔
    query = .conjunction ((alphanumericRuns kinds term).map prefixCondition)

end Expression

/-! ## Runs -/

section Runs

variable {kinds : Alphanumeric} {term : Text}

/-- A run is not empty, and alphanumeric throughout. -/
theorem of_mem_alphanumericRuns {word : Text} (mem : word ∈ alphanumericRuns kinds term) :
    word ≠ [] ∧ ∀ char ∈ word, kinds.isAlphanumeric char = true ∧ char ∈ term := by
  obtain ⟨isPiece, notEmpty⟩ := List.mem_filter.mp mem
  refine ⟨by simpa using notEmpty, fun char inWord => ?_⟩
  obtain ⟨kept, inTerm⟩ := Text.of_mem_splitOnP isPiece char inWord
  exact ⟨by simpa using kept, inTerm⟩

/-- There is no run only where nothing is alphanumeric. -/
theorem alphanumericRuns_eq_nil_iff :
    alphanumericRuns kinds term = [] ↔ ∀ char ∈ term, kinds.isAlphanumeric char = false := by
  constructor
  · intro noRuns
    induction term with
    | nil => exact List.forall_mem_nil _
    | cons head rest ih =>
      obtain ⟨first, later, isSplit⟩ := List.exists_cons_of_ne_nil
        (List.splitOnP_ne_nil (fun char => !kinds.isAlphanumeric char) rest)
      cases isKept : kinds.isAlphanumeric head with
      | true =>
        rw [alphanumericRuns, List.splitOnP_cons_eq_if_modifyHead, isKept, isSplit] at noRuns
        simp at noRuns
      | false =>
        rw [alphanumericRuns, List.splitOnP_cons_eq_if_modifyHead, isKept] at noRuns
        exact List.forall_mem_cons.mpr ⟨isKept, ih (by simpa [alphanumericRuns] using noRuns)⟩
  · intro none
    rw [List.eq_nil_iff_forall_not_mem]
    intro word mem
    obtain ⟨notEmpty, kept⟩ := of_mem_alphanumericRuns mem
    obtain ⟨char, rest, rfl⟩ := List.exists_cons_of_ne_nil notEmpty
    obtain ⟨isKept, inTerm⟩ := kept char List.mem_cons_self
    exact absurd (isKept.symm.trans (none char inTerm)) (by decide)

theorem ftsMatchExpr_eq_nil_iff : ftsMatchExpr kinds term = [] ↔ alphanumericRuns kinds term = [] := by
  rw [ftsMatchExpr]
  cases alphanumericRuns kinds term with
  | nil => simp
  | cons word rest => cases rest <;> simp [List.intercalate_cons_cons]

/-- What is alphanumeric is part of a bareword. -/
theorem isBareword_of_isAlphanumeric {char : Char} (kept : kinds.isAlphanumeric char = true) :
    isBareword char = true := by
  by_cases ascii : char.toNat < 128
  · rw [kinds.ascii char ascii] at kept
    simp [isBareword, kept]
  · simp [isBareword, Nat.le_of_not_lt ascii]

end Runs

/-! ## How an expression is read -/

section Reading

theorem begin_blank : begin ' ' = some ([], .between) := rfl

/-- What can stand in a bareword begins one. -/
theorem begin_bareword {char : Char} (isWord : isBareword char = true) :
    begin char = some ([], .bareword [char]) := by
  have noBlank : isBlank char = false := by
    rw [Bool.eq_false_iff]
    intro blank
    simp only [isBlank, Bool.or_eq_true, decide_eq_true_eq] at blank
    rcases blank with ((rfl | rfl) | rfl) | rfl <;> exact absurd isWord (by decide)
  have noQuote : char ≠ '"' := by
    rintro rfl
    exact absurd isWord (by decide)
  rw [begin, noBlank, if_neg Bool.false_ne_true, if_neg noQuote, if_pos isWord]

/-- Where nothing is left of a token, the next character only begins one. -/
theorem tokens_between (char : Char) (rest : Text) : tokens .between (char :: rest) =
      (begin char).bind fun read => (tokens read.2 rest).map (read.1 ++ ·) := rfl

theorem tokens_bareword (read : Text) (char : Char) (rest : Text) : tokens (.bareword read) (char :: rest) =
      (next (.bareword read) char).bind fun read => (tokens read.2 rest).map (read.1 ++ ·) := rfl

/-- A word with a star is two tokens. -/
theorem tokens_word {word : Text} (notEmpty : word ≠ []) (isWord : ∀ char ∈ word, isBareword char = true)
    (rest : Text) : tokens .between (word ++ '*' :: rest) =
      (tokens .between rest).map ([barewordToken word, .star] ++ ·) := by
  have reads : ∀ read later : Text, (∀ char ∈ later, isBareword char = true) →
      tokens (.bareword read) (later ++ '*' :: rest) =
        (tokens .between rest).map ([barewordToken (read ++ later), .star] ++ ·) := by
    intro read later
    induction later generalizing read with
    | nil =>
      intro
      have ends : next (.bareword read) '*' = some ([barewordToken read, .star], .between) := rfl
      rw [List.nil_append, tokens_bareword, ends, Option.bind_some, List.append_nil]
    | cons char later ih =>
      intro isLater
      obtain ⟨first, others⟩ := List.forall_mem_cons.mp isLater
      have behind := ih (read ++ [char]) others
      rw [List.append_assoc, List.singleton_append] at behind
      rw [List.cons_append, tokens_bareword, next, if_pos first, Option.bind_some, behind, Option.map_map]
      rfl
  obtain ⟨char, later, rfl⟩ := List.exists_cons_of_ne_nil notEmpty
  obtain ⟨first, others⟩ := List.forall_mem_cons.mp isWord
  rw [List.cons_append, tokens_between, begin_bareword first, Option.bind_some, reads [char] later others,
    Option.map_map]
  rfl

/-- Words with a star each and a blank between them are two tokens each. -/
theorem tokens_words {words : List Text}
    (areWords : ∀ word ∈ words, word ≠ [] ∧ ∀ char ∈ word, isBareword char = true) :
    tokens .between ([' '].intercalate (words.map fun word => word ++ ['*'])) =
      some (words.flatMap fun word => [barewordToken word, .star]) := by
  induction words with
  | nil => rfl
  | cons word rest ih =>
    obtain ⟨⟨notEmpty, isWord⟩, others⟩ := List.forall_mem_cons.mp areWords
    have behind := ih others
    cases rest with
    | nil => simpa [List.intercalate, tokens] using tokens_word notEmpty isWord []
    | cons next later =>
      rw [List.map_cons] at behind
      rw [List.map_cons, List.map_cons, List.intercalate_cons_cons, List.append_assoc,
        List.append_assoc, List.singleton_append, List.singleton_append, tokens_word notEmpty isWord,
        tokens_between, begin_blank, Option.bind_some, behind]
      rfl

variable (kinds : Alphanumeric) (term : Text)

/-- The tokens of an expression are those of the runs. -/
theorem tokens_ftsMatchExpr : tokens .between (ftsMatchExpr kinds term) =
      some ((alphanumericRuns kinds term).flatMap fun word => [barewordToken word, .star]) := by
  refine tokens_words fun word mem => ?_
  obtain ⟨notEmpty, kept⟩ := of_mem_alphanumericRuns mem
  exact ⟨notEmpty, fun char inWord => isBareword_of_isAlphanumeric (kept char inWord).1⟩

end Reading

section Validity

variable {kinds : Alphanumeric} {term : Text}

/-- Where no run is an operator, the tokens are those of prefixes. -/
theorem tokens_eq_prefixTokens {words : List Text} (noOperator : ∀ word ∈ words, operators.lookup word = none) :
    (words.flatMap fun word => [barewordToken word, .star]) = prefixTokens words := by
  induction words with
  | nil => rfl
  | cons word rest ih =>
    obtain ⟨first, others⟩ := List.forall_mem_cons.mp noOperator
    have isString : barewordToken word = .string word := by rw [barewordToken, first, Option.getD_none]
    rw [List.flatMap_cons, ih others, isString]
    rfl

/-- The token of an operator is no string. -/
theorem barewordToken_ne_string {word : Text} (isOperator : operators.lookup word ≠ none) (text : Text) :
    barewordToken word ≠ .string text := by
  obtain ⟨token, found⟩ := Option.ne_none_iff_exists'.mp isOperator
  rw [barewordToken, found, Option.getD_some]
  rintro rfl
  obtain ⟨before, after, same, -⟩ := List.lookup_eq_some_iff.mp found
  have mem : (word, Token.string text) ∈ operators := by
    rw [same]
    exact List.mem_append_right before List.mem_cons_self
  simp [operators] at mem

/-- A star behind an operator is read as no query. -/
theorem not_isQuery_of_operator {words : List Text} {word : Text} (mem : word ∈ words)
    (isOperator : operators.lookup word ≠ none) (query : Query) :
    ¬IsQuery (words.flatMap fun word => [barewordToken word, .star]) query := by
  intro isQuery
  obtain ⟨before, after, rfl⟩ := List.append_of_mem mem
  rw [List.flatMap_append, List.flatMap_cons] at isQuery
  have isSplit := isQuery.starsFollow ((before.flatMap fun word => [barewordToken word, .star]) ++ [barewordToken word])
    (after.flatMap fun word => [barewordToken word, .star]) (by simp)
  obtain ⟨earlier, text, same⟩ := isSplit
  obtain ⟨-, isString⟩ := List.append_inj' same rfl
  exact barewordToken_ne_string isOperator text (List.cons.inj isString).1

variable (kinds term)

/-- An expression is the conjunction of a prefix for every run of its term just where no run is
an operator. -/
theorem isConjunction_iff :
    IsConjunction kinds term ↔ ∀ word ∈ alphanumericRuns kinds term, operators.lookup word = none := by
  constructor
  · intro valid word mem
    by_contra isOperator
    have notEmpty : ftsMatchExpr kinds term ≠ [] := by
      rw [Ne, ftsMatchExpr_eq_nil_iff]
      exact List.ne_nil_of_mem mem
    obtain ⟨read, isRead, isQuery⟩ := (valid.parses notEmpty _).mpr rfl
    rw [tokens_ftsMatchExpr, Option.some.injEq] at isRead
    subst isRead
    exact not_isQuery_of_operator mem isOperator _ isQuery
  · intro noOperator
    refine ⟨ftsMatchExpr_eq_nil_iff.trans alphanumericRuns_eq_nil_iff, fun notEmpty query => ?_⟩
    have someRun : alphanumericRuns kinds term ≠ [] := fun none =>
      notEmpty (ftsMatchExpr_eq_nil_iff.mpr none)
    rw [← isQuery_prefixTokens_iff someRun, Parses, tokens_ftsMatchExpr, tokens_eq_prefixTokens noOperator]
    exact ⟨fun ⟨read, isRead, isQuery⟩ => Option.some.inj isRead ▸ isQuery, fun isQuery => ⟨_, rfl, isQuery⟩⟩

/-- `AND` is an operator, and a syntax error as a term. -/
theorem not_isConjunction_and : ¬IsConjunction .asciiOnly ['A', 'N', 'D'] ∧
      ∀ query, ¬Parses (ftsMatchExpr .asciiOnly ['A', 'N', 'D']) query := by
  have runs : alphanumericRuns .asciiOnly ['A', 'N', 'D'] = [['A', 'N', 'D']] := by decide
  have mem : ['A', 'N', 'D'] ∈ alphanumericRuns .asciiOnly ['A', 'N', 'D'] := by
    rw [runs]
    exact List.mem_cons_self
  have isOperator : operators.lookup ['A', 'N', 'D'] ≠ none := by decide
  have noQuery : ∀ query, ¬Parses (ftsMatchExpr .asciiOnly ['A', 'N', 'D']) query := by
    rintro query ⟨read, isRead, isQuery⟩
    rw [tokens_ftsMatchExpr, Option.some.injEq] at isRead
    subst isRead
    exact not_isQuery_of_operator mem isOperator query isQuery
  refine ⟨fun valid => ?_, noQuery⟩
  have notEmpty : ftsMatchExpr .asciiOnly ['A', 'N', 'D'] ≠ [] := by
    rw [Ne, ftsMatchExpr_eq_nil_iff, runs]
    exact List.cons_ne_nil _ _
  exact noQuery _ ((valid.parses notEmpty _).mpr rfl)

end Validity

end TutaBridge.Store
