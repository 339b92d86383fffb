import TutaBridge.Std.Text

/-!
# Lines of an IMAP client

How the session splits a line into tag, command and arguments, and takes quoted strings
apart. LOGIN, STATUS and MOVE read a token with escapes; APPEND is recognized before any
other command and reads its mailbox up to the next quote.
-/

namespace TutaBridge.Imap

open TutaBridge.Std

/-- What `parse_command` returns. -/
structure CommandLine where
  tag : Text
  command : Text
  args : Text
deriving DecidableEq, Repr

/-- `parse_command`, a `splitn(3, ' ')`. -/
def parseCommand (line : Text) : CommandLine :=
  match Text.splitOnce ' ' line with
  | none => ⟨line, [], []⟩
  | some (tag, rest) =>
    match Text.splitOnce ' ' rest with
    | none => ⟨tag, rest, []⟩
    | some (command, args) => ⟨tag, command, args⟩

/-- The loop of `parse_imap_token` on what follows the opening quote; `escaped` after a
backslash. -/
def quotedToken : (escaped : Bool) → Text → Text × Text
  | _, [] => ([], [])
  | true, char :: rest => (char :: (quotedToken false rest).1, (quotedToken false rest).2)
  | false, char :: rest =>
    if char = '\\' then quotedToken true rest
    else if char = '"' then ([], rest)
    else (char :: (quotedToken false rest).1, (quotedToken false rest).2)

/-- `parse_imap_token`: a token and what follows it. -/
def parseImapToken : Text → Text × Text
  | [] => ([], [])
  | char :: rest =>
    if char = '"' then quotedToken false rest
    else
      ((char :: rest).takeWhile fun char => !Text.isWhitespace char,
        (char :: rest).dropWhile fun char => !Text.isWhitespace char)

/-- `parse_login_args`: the user and the password. -/
def parseLoginArgs (args : Text) : Text × Text :=
  let user := parseImapToken (Text.trim args)
  let password := parseImapToken (Text.trimStart user.2)
  (user.1, password.1)

/-- An `APPEND` command: the tag, the target mailbox, and the size of the literal the
client is about to send. -/
structure AppendRequest where
  tag : Text
  mailbox : Text
  literalSize : Nat
deriving DecidableEq, Repr

/-- `append_first_token`. -/
def appendFirstToken (args : Text) : Option Text :=
  match Text.trimStart args with
  | [] => none
  | char :: rest =>
    if char = '"' then (Text.splitOnce '"' rest).map Prod.fst
    else some ((char :: rest).takeWhile fun char => !Text.isWhitespace char)

/-- `append_literal_size`: the number between the last `{` and the next `}`, which `+`
may end. -/
def appendLiteralSize (args : Text) : Option Nat :=
  if '{' ∈ args then
    (Text.splitOnce '}' (args.rtakeWhile (· ≠ '{'))).bind fun declared =>
      Text.parseUnsigned 64 (declared.1.rdropWhile (· = '+'))
  else none

/-- `parse_append`. -/
def parseAppend (line : Text) : Option AppendRequest :=
  let parsed := parseCommand line
  if Text.eqIgnoreAsciiCase parsed.command "APPEND".toList then
    (appendFirstToken parsed.args).bind fun mailbox =>
      (appendLiteralSize parsed.args).map fun literalSize => ⟨parsed.tag, mailbox, literalSize⟩
  else none

/-! ## Quoted strings -/

/-- A character in a quoted string, behind a backslash if it is a quote or a backslash. -/
def escapeChar (char : Char) : Text :=
  if char = '"' ∨ char = '\\' then ['\\', char] else [char]

/-- A quoted string as a client writes it. -/
def quoted (text : Text) : Text := '"' :: (text.flatMap escapeChar ++ ['"'])

theorem quotedToken_escaped (text rest : Text) :
    quotedToken false (text.flatMap escapeChar ++ '"' :: rest) = (text, rest) := by
  induction text with
  | nil => rfl
  | cons char later ih =>
    rw [List.flatMap_cons, escapeChar]
    split
    next special =>
      rw [List.cons_append, List.singleton_append, List.cons_append, List.cons_append, quotedToken,
        if_pos rfl, quotedToken, ih]
    next plain =>
      obtain ⟨notQuote, notBackslash⟩ := not_or.mp plain
      rw [List.singleton_append, List.cons_append, quotedToken, if_neg notBackslash, if_neg notQuote, ih]

/-- A quoted string is read back, whatever follows it. -/
theorem parseImapToken_quoted (text rest : Text) : parseImapToken (quoted text ++ rest) = (text, rest) := by
  rw [quoted, List.cons_append, List.append_assoc, List.singleton_append, parseImapToken,
    if_pos rfl, quotedToken_escaped]

theorem flatMap_escapeChar_of_plain {text : Text} (noQuote : '"' ∉ text) (noBackslash : '\\' ∉ text) :
    text.flatMap escapeChar = text := by
  induction text with
  | nil => rfl
  | cons char rest ih =>
    obtain ⟨quoteDiffers, quoteAbsent⟩ := not_or.mp (mt List.mem_cons.mpr noQuote)
    obtain ⟨backslashDiffers, backslashAbsent⟩ := not_or.mp (mt List.mem_cons.mpr noBackslash)
    rw [List.flatMap_cons, escapeChar, if_neg (not_or.mpr ⟨Ne.symm quoteDiffers, Ne.symm backslashDiffers⟩),
      ih quoteAbsent backslashAbsent, List.singleton_append]

/-- A text without quotes and backslashes is quoted as it is. -/
theorem quoted_of_plain {text : Text} (noQuote : '"' ∉ text) (noBackslash : '\\' ∉ text) :
    quoted text = '"' :: text ++ ['"'] := by
  rw [quoted, flatMap_escapeChar_of_plain noQuote noBackslash, List.cons_append]

/-! ## Commands with arguments -/

theorem parseCommand_args {tag command : Text} (args : Text) (tagSolid : ' ' ∉ tag) (commandSolid : ' ' ∉ command) :
    parseCommand (tag ++ ' ' :: (command ++ ' ' :: args)) = ⟨tag, command, args⟩ := by
  simp only [parseCommand, Text.splitOnce_append tagSolid, Text.splitOnce_append commandSolid]

/-- A command of another name is no `APPEND`. -/
theorem parseAppend_eq_none {line : Text}
    (other : Text.eqIgnoreAsciiCase (parseCommand line).command "APPEND".toList = false) :
    parseAppend line = none := by
  simp only [parseAppend]
  rw [if_neg (by rw [other]; exact Bool.false_ne_true)]

theorem appendFirstToken_quoted {mailbox : Text} (noQuote : '"' ∉ mailbox) (rest : Text) :
    appendFirstToken ('"' :: (mailbox ++ '"' :: rest)) = some mailbox := by
  rw [appendFirstToken, Text.trimStart_cons (by decide)]
  dsimp only
  rw [if_pos rfl, Text.splitOnce_append noQuote, Option.map_some]

/-- `{N}`, or `{N+}` for a literal that is sent without waiting. -/
def literalMark (synchronizing : Bool) (size : Nat) : Text :=
  '{' :: ((Text.decimal size ++ if synchronizing then [] else ['+']) ++ ['}'])

theorem rdropWhile_plus_decimal (size : Nat) : (Text.decimal size).rdropWhile (· = '+') = Text.decimal size := by
  rw [List.rdropWhile_eq_self_iff]
  intro notEmpty isPlus
  rw [decide_eq_true_eq] at isPlus
  exact Text.not_mem_decimal (by decide) (isPlus ▸ List.getLast_mem notEmpty)

/-- The size of a literal is read from its mark at the end of the line. -/
theorem appendLiteralSize_mark (size : Nat) (synchronizing : Bool) (before : Text) :
    appendLiteralSize (before ++ literalMark synchronizing size) = Text.parseUnsigned 64 (Text.decimal size) := by
  have noDigit : ∀ char, char.isDigit = false → char ≠ '+' →
      char ∉ Text.decimal size ++ if synchronizing then [] else ['+'] := by
    intro char noDigit notPlus mem
    rcases List.mem_append.mp mem with inNumber | inPlus
    · exact Text.not_mem_decimal noDigit inNumber
    · cases synchronizing <;> simp [notPlus] at inPlus
  have noOpen : '{' ∉ (Text.decimal size ++ if synchronizing then [] else ['+']) ++ ['}'] := by
    rw [List.mem_append, List.mem_singleton, not_or]
    exact ⟨noDigit '{' (by decide) (by decide), by decide⟩
  have number : (Text.decimal size ++ if synchronizing then [] else ['+']).rdropWhile (· = '+') =
      Text.decimal size := by
    cases synchronizing with
    | false => exact (List.rdropWhile_concat_pos _ _ _ (by simp)).trans (rdropWhile_plus_decimal size)
    | true => exact (congrArg _ (List.append_nil _)).trans (rdropWhile_plus_decimal size)
  have openMark : (before ++ '{' :: ((Text.decimal size ++ if synchronizing then [] else ['+']) ++
      ['}'])).rtakeWhile (· ≠ '{') = (Text.decimal size ++ if synchronizing then [] else ['+']) ++ ['}'] :=
    Text.rtakeWhile_append_cons (by decide) fun char mem =>
      decide_eq_true fun same => noOpen (same ▸ mem)
  rw [appendLiteralSize, if_pos (by simp [literalMark]), literalMark, openMark,
    Text.splitOnce_append (noDigit '}' (by decide) (by decide)), Option.bind_some, number]

theorem appendLiteralSize_literalMark {size : Nat} (fits : size < 2 ^ 64) (synchronizing : Bool)
    (before : Text) : appendLiteralSize (before ++ literalMark synchronizing size) = some size :=
  (appendLiteralSize_mark size synchronizing before).trans (Text.parseUnsigned_decimal fits)

/-- An `APPEND` with a quoted mailbox that needs no escapes. -/
theorem parseAppend_quoted {tag mailbox : Text} (tagSolid : ' ' ∉ tag) (noQuote : '"' ∉ mailbox)
    (noBackslash : '\\' ∉ mailbox) (options : Text) (synchronizing : Bool) {size : Nat}
    (fits : size < 2 ^ 64) :
    parseAppend (tag ++ ' ' :: ("APPEND".toList ++ ' ' ::
        (quoted mailbox ++ (options ++ literalMark synchronizing size)))) =
      some ⟨tag, mailbox, size⟩ := by
  have first : appendFirstToken (quoted mailbox ++ (options ++ literalMark synchronizing size)) =
      some mailbox := by
    rw [quoted_of_plain noQuote noBackslash, List.append_assoc, List.cons_append, List.singleton_append]
    exact appendFirstToken_quoted noQuote _
  have last : appendLiteralSize (quoted mailbox ++ (options ++ literalMark synchronizing size)) =
      some size := by
    rw [← List.append_assoc]
    exact appendLiteralSize_literalMark fits synchronizing _
  simp only [parseAppend, parseCommand_args _ tagSolid (show ' ' ∉ "APPEND".toList by decide)]
  rw [if_pos (by decide), first, last]
  rfl

end TutaBridge.Imap
