import TutaBridge.Events.FolderList
import TutaBridge.Imap.Lines
import TutaBridge.Imap.Session
import TutaBridge.Imap.Utf7

/-!
# Mailbox names between LIST and the client

LIST shows a folder's path in modified UTF-7 between quotes, without escapes. A client
reads the quoted string, and names the folder by a quoted string of its own, which each
command takes apart in its own way and looks up as the first folder of that path, without
regard to ASCII case. A name comes back to its folder exactly when the path has no quote
and no backslash, and no folder before it has the same path.
-/

namespace TutaBridge.Imap

open TutaBridge.Std Tuta Store Bridge Events

variable (casing : Casing)

variable {folder : FolderInfo}

/-! ## The session -/

/-- The name that `LIST` shows for a folder. -/
def listedName (folder : FolderInfo) : Text :=
  '"' :: (Utf7.encode folder.imapPath.toList ++ ['"'])

/-- `utf7::decode(raw).unwrap_or(raw)`. -/
def decodeName (raw : Text) : Text := (Utf7.decode raw).getD raw

/-- The mailbox of `cmd_select`. -/
def selectMailbox (args : Text) : Text := Text.trimMatches '"' (Text.trim args)

/-- The mailbox of `cmd_status`. -/
def statusMailbox (args : Text) : Text := (parseImapToken (Text.trim args)).1

/-- The sequence set and the rest of `cmd_move`. -/
def moveArgs (args : Text) : Text × Text :=
  (Text.splitOnce ' ' (Text.trim args)).getD (Text.trim args, [])

/-- The mailbox of `cmd_move`. -/
def moveMailbox (args : Text) : Text := (parseImapToken (Text.trim (moveArgs args).2)).1

/-- The mailbox that a command of the session reads from its arguments. -/
def commandMailbox (command args : Text) : Option Text :=
  if command = "SELECT".toList ∨ command = "EXAMINE".toList then some (selectMailbox args)
  else if command = "STATUS".toList then some (statusMailbox args)
  else if command = "MOVE".toList then some (moveMailbox args)
  else none

/-- The mailbox that a line names, as the command it is handled as reads it. -/
def mailboxArgument (line : Text) : Option Text :=
  match parseAppend line with
  | some request => some request.mailbox
  | none =>
    let parsed := parseCommand line
    commandMailbox (casing.toUppercase parsed.command) parsed.args

/-- The folder that a line the client sent is resolved to. -/
def namedFolder (store : MailStore) (line : Text) : Option FolderInfo :=
  (mailboxArgument casing (Text.trimEnd line)).bind fun raw =>
    folderByImapPath store (String.ofList (decodeName raw))

/-! ## The client -/

/-- An RFC 3501 quoted string behind its opening quote, which ends the text: a backslash
stands only before a quote or a backslash. -/
def readShown : (escaped : Bool) → Text → Option Text
  | _, [] => none
  | true, char :: rest =>
    if char = '"' ∨ char = '\\' then (readShown false rest).map (char :: ·) else none
  | false, char :: rest =>
    if char = '\\' then readShown true rest
    else if char = '"' then if rest = [] then some [] else none
    else (readShown false rest).map (char :: ·)

/-- Read a quoted string. -/
def readName : Text → Option Text
  | [] => none
  | char :: rest => if char = '"' then readShown false rest else none

/-- The commands that name a mailbox, with what they carry beside it. -/
inductive Naming where
  | select
  | status (items : Text)
  | move (set : Text)
  | append (options : Text) (synchronizing : Bool) (size : Nat)

/-- The arguments are ones a client sends: a sequence set is without blanks, and the size
of a literal fits the server's number. -/
def Naming.Sound : Naming → Prop
  | .select | .status _ => True
  | .move set => set ≠ [] ∧ ∀ char ∈ set, Text.isWhitespace char = false
  | .append _ _ size => size < 2 ^ 64

/-- The end of a line. -/
def crlf : Text := ['\r', '\n']

/-- The line with which a client names the mailbox. -/
def Naming.line (tag name : Text) : Naming → Text
  | .select => tag ++ ' ' :: ("SELECT".toList ++ ' ' :: (quoted name ++ crlf))
  | .status items => tag ++ ' ' :: ("STATUS".toList ++ ' ' :: (quoted name ++ (' ' :: items ++ crlf)))
  | .move set => tag ++ ' ' :: ("MOVE".toList ++ ' ' :: (set ++ ' ' :: (quoted name ++ crlf)))
  | .append options synchronizing size =>
    tag ++ ' ' :: ("APPEND".toList ++ ' ' ::
      (quoted name ++ (options ++ literalMark synchronizing size ++ crlf)))

/-- The client can read the name that `LIST` shows for the folder, and each line that
names it so is resolved to the folder. -/
def RoundTrips (store : MailStore) (folder : FolderInfo) : Prop :=
  ∃ name, readName (listedName folder) = some name ∧ ∀ tag, ' ' ∉ tag → ∀ naming : Naming, naming.Sound →
      namedFolder casing store (naming.line tag name) = some folder

/-- A path without the characters that a quoted string escapes. -/
def PlainPath (path : Text) : Prop := '"' ∉ path ∧ '\\' ∉ path

instance (path : Text) : Decidable (PlainPath path) := inferInstanceAs (Decidable (_ ∧ _))

/-- The folder is in the list, and no folder before it has its path, but for ASCII case. -/
def FirstOfItsName (folders : List FolderInfo) (folder : FolderInfo) : Prop :=
  ∃ before after, folders = before ++ folder :: after ∧
    ∀ other ∈ before, other.imapPath.toLower ≠ folder.imapPath.toLower

/-! ## Reading what is shown -/

theorem readShown_append {first : Text} (plain : PlainPath first) (rest : Text) :
    readShown false (first ++ rest) = (readShown false rest).map (first ++ ·) := by
  induction first with
  | nil => simp
  | cons char later ih =>
    obtain ⟨quoteDiffers, quoteAbsent⟩ := not_or.mp (mt List.mem_cons.mpr plain.1)
    obtain ⟨backslashDiffers, backslashAbsent⟩ := not_or.mp (mt List.mem_cons.mpr plain.2)
    rw [List.cons_append, readShown, if_neg (Ne.symm backslashDiffers),
      if_neg (Ne.symm quoteDiffers), ih ⟨quoteAbsent, backslashAbsent⟩,
      Option.map_map]
    rfl

/-- A run that was flushed holds neither quotes nor backslashes. -/
theorem plainPath_flush (shifted : List UInt16) : PlainPath (Utf7.flush shifted) := by
  have outside : ∀ char, char ≠ '&' → char ≠ '-' → char ∉ Utf7.modifiedB64 → char ∉ Utf7.flush shifted := by
    intro char notAmpersand notMinus notDigit mem
    rcases eq_or_ne shifted [] with rfl | someUnits
    · cases mem
    · rw [Utf7.flush_of_ne_nil someUnits, List.mem_cons, List.mem_append, List.mem_singleton] at mem
      rcases mem with isAmpersand | isDigit | isMinus
      · exact notAmpersand isAmpersand
      · exact notDigit (Base64.mem_alphabet_of_mem_encode Utf7.length_modifiedB64 isDigit)
      · exact notMinus isMinus
  exact ⟨outside '"' (by decide) (by decide) (by decide), outside '\\' (by decide) (by decide) (by decide)⟩

/-- With units to write, the first character written is `&`. -/
theorem encodeFrom_shifted {shifted : List UInt16} (someUnits : shifted ≠ []) (text : Text) :
    ∃ rest, Utf7.encodeFrom shifted text = '&' :: rest := by
  induction text generalizing shifted with
  | nil => exact ⟨_, Utf7.flush_of_ne_nil someUnits⟩
  | cons char later ih =>
    rw [Utf7.encodeFrom, Utf7.flush_of_ne_nil someUnits]
    split
    · exact ⟨_, rfl⟩
    · split
      · exact ⟨_, rfl⟩
      · exact ih (List.append_ne_nil_of_left_ne_nil someUnits _)

theorem encodeFrom_special {char : Char} (special : char = '"' ∨ char = '\\')
    (shifted : List UInt16) (rest : Text) :
    Utf7.encodeFrom shifted (char :: rest) = Utf7.flush shifted ++ char :: Utf7.encode rest := by
  have direct : char ≠ '&' ∧ Utf7.isDirect char = true := by
    rcases special with rfl | rfl <;> decide
  rw [Utf7.encodeFrom, if_neg direct.1, if_pos direct.2]
  rfl

theorem encodeFrom_flush {char : Char} {shown : Text}
    (written : ∀ shifted rest, Utf7.encodeFrom shifted (char :: rest) =
      Utf7.flush shifted ++ (shown ++ Utf7.encode rest))
    (plainShown : PlainPath shown) (plainChar : PlainPath [char]) {rest : Text}
    (reads : readShown false (Utf7.encode rest ++ ['"']) =
      (readShown false (rest ++ ['"'])).map Utf7.encode) (shifted : List UInt16) :
    readShown false (Utf7.encodeFrom shifted (char :: rest) ++ ['"']) =
      (readShown false (char :: rest ++ ['"'])).map (Utf7.encodeFrom shifted) := by
  have readsChar := readShown_append plainChar (rest ++ ['"'])
  rw [List.singleton_append] at readsChar
  rw [written, List.append_assoc, List.append_assoc, readShown_append (plainPath_flush shifted),
    readShown_append plainShown, reads, List.cons_append, readsChar, Option.map_map, Option.map_map,
    Option.map_map]
  refine congrArg (Option.map · _) (funext fun later => ?_)
  exact (written shifted later).symm

/-- Reading a quoted string commutes with the encoding: what is escaped in the one is
escaped in the other, and a quote that ends the one ends the other. -/
theorem readShown_encodeFrom (text : Text) :
    (∀ shifted, readShown false (Utf7.encodeFrom shifted text ++ ['"']) =
      (readShown false (text ++ ['"'])).map (Utf7.encodeFrom shifted)) ∧
    ∀ shifted, (readShown true (Utf7.encode text ++ ['"'])).map (Utf7.flush shifted ++ ·) =
      (readShown true (text ++ ['"'])).map (Utf7.encodeFrom shifted) := by
  induction text with
  | nil =>
    refine ⟨fun shifted => ?_, fun shifted => rfl⟩
    rw [Utf7.encodeFrom, readShown_append (plainPath_flush shifted)]
    exact congrArg some (List.append_nil _)
  | cons char rest ih =>
    obtain ⟨reads, readsEscaped⟩ := ih
    by_cases special : char = '"' ∨ char = '\\'
    · have written := encodeFrom_special special
      constructor
      · intro shifted
        rw [written, List.append_assoc, readShown_append (plainPath_flush shifted), List.cons_append,
          List.cons_append, readShown, readShown]
        split
        · exact readsEscaped shifted
        next notBackslash =>
          rw [if_pos (special.resolve_right notBackslash), if_neg (by simp),
            if_pos (special.resolve_right notBackslash), if_neg (by simp)]
          rfl
      · intro shifted
        rw [Utf7.encode, written, Utf7.flush_nil, List.nil_append, List.cons_append, readShown,
          if_pos special, List.cons_append, readShown, if_pos special, Utf7.encode, reads [],
          Option.map_map, Option.map_map, Option.map_map]
        refine congrArg (Option.map · _) (funext fun later => ?_)
        exact (written shifted later).symm
    · obtain ⟨notQuote, notBackslash⟩ := not_or.mp special
      have plainChar : PlainPath [char] :=
        ⟨by simpa using Ne.symm notQuote, by simpa using Ne.symm notBackslash⟩
      have refused : ∀ shifted, (readShown true (char :: rest ++ ['"'])).map
          (Utf7.encodeFrom shifted) = none := by
        intro shifted
        rw [List.cons_append, readShown, if_neg special]
        rfl
      by_cases isAmpersand : char = '&'
      · subst isAmpersand
        constructor
        · refine @encodeFrom_flush '&' ['&', '-'] (fun shifted rest => ?_) (by decide) plainChar _
            (reads [])
          rw [Utf7.encodeFrom, if_pos rfl]
          rfl
        · intro shifted
          rw [refused, Utf7.encode, Utf7.encodeFrom, if_pos rfl]
          rfl
      · by_cases direct : Utf7.isDirect char = true
        · have written : ∀ shifted rest, Utf7.encodeFrom shifted (char :: rest) =
              Utf7.flush shifted ++ ([char] ++ Utf7.encode rest) := by
            intro shifted rest
            rw [Utf7.encodeFrom, if_neg isAmpersand, if_pos direct]
            rfl
          refine ⟨encodeFrom_flush written plainChar plainChar (reads []), fun shifted => ?_⟩
          rw [refused, Utf7.encode, written, Utf7.flush_nil, List.nil_append, List.singleton_append,
            List.cons_append, readShown, if_neg special]
          rfl
        · have written : ∀ shifted rest, Utf7.encodeFrom shifted (char :: rest) =
              Utf7.encodeFrom (shifted ++ Utf16.encodeChar char) rest := by
            intro shifted rest
            rw [Utf7.encodeFrom, if_neg isAmpersand, if_neg direct]
          constructor
          · intro shifted
            have readsChar := readShown_append plainChar (rest ++ ['"'])
            rw [List.singleton_append] at readsChar
            rw [written, reads, List.cons_append, readsChar, Option.map_map]
            refine congrArg (Option.map · _) (funext fun later => ?_)
            exact (written shifted later).symm
          · intro shifted
            obtain ⟨later, isLater⟩ :=
              encodeFrom_shifted (Utf16.encodeChar_ne_nil char) rest
            rw [refused, Utf7.encode, written, List.nil_append, isLater]
            rfl

theorem length_readShown {escaped : Bool} {text read : Text}
    (reads : readShown escaped (text ++ ['"']) = some read) : read.length ≤ text.length := by
  induction text generalizing escaped read with
  | nil => cases escaped <;> simp_all [readShown]
  | cons char rest ih =>
    cases escaped with
    | true =>
      rw [List.cons_append, readShown] at reads
      split at reads
      · obtain ⟨later, isLater, rfl⟩ := Option.map_eq_some_iff.mp reads
        have := ih isLater
        simpa using this
      · cases reads
    | false =>
      rw [List.cons_append, readShown] at reads
      split at reads
      · have := ih reads
        simp only [List.length_cons]
        omega
      · split at reads
        · rw [if_neg (by simp)] at reads
          cases reads
        · obtain ⟨later, isLater, rfl⟩ := Option.map_eq_some_iff.mp reads
          have := ih isLater
          simpa using this

/-- What is read is the text, or shorter where something was escaped. -/
theorem readShown_eq_or_shorter {text read : Text} (reads : readShown false (text ++ ['"']) = some read) :
    PlainPath text ∧ read = text ∨ read.length < text.length := by
  induction text generalizing read with
  | nil =>
    obtain rfl : [] = read := Option.some.inj reads
    exact .inl ⟨by decide, rfl⟩
  | cons char rest ih =>
    rw [List.cons_append, readShown] at reads
    split at reads
    · exact .inr (Nat.lt_succ_of_le (length_readShown reads))
    next notBackslash =>
      split at reads
      · rw [if_neg (by simp)] at reads
        cases reads
      next notQuote =>
        obtain ⟨later, isLater, rfl⟩ := Option.map_eq_some_iff.mp reads
        rcases ih isLater with ⟨plain, rfl⟩ | shorter
        · refine .inl ⟨⟨?_, ?_⟩, rfl⟩
          · exact fun mem => (List.mem_cons.mp mem).elim (fun same => notQuote same.symm) plain.1
          · exact fun mem =>
              (List.mem_cons.mp mem).elim (fun same => notBackslash same.symm) plain.2
        · exact .inr (Nat.succ_lt_succ shorter)

/-- What a client reads for a folder is the encoding of its path, or of a shorter text. -/
theorem readName_listedName {name : Text} (reads : readName (listedName folder) = some name) :
    ∃ path, name = Utf7.encode path ∧ (PlainPath folder.imapPath.toList ∧ path = folder.imapPath.toList ∨
        path.length < folder.imapPath.toList.length) := by
  rw [listedName, readName, if_pos rfl, Utf7.encode,
    (readShown_encodeFrom folder.imapPath.toList).1 []] at reads
  obtain ⟨path, isPath, rfl⟩ := Option.map_eq_some_iff.mp reads
  exact ⟨path, rfl, readShown_eq_or_shorter isPath⟩

/-- A plain path is shown by a plain name, and read as it is shown. -/
theorem readName_of_plain (plain : PlainPath folder.imapPath.toList) :
    PlainPath (Utf7.encode folder.imapPath.toList) ∧
      readName (listedName folder) = some (Utf7.encode folder.imapPath.toList) := by
  have ending : readShown false ['"'] = some [] := rfl
  have reads : readShown false (Utf7.encode folder.imapPath.toList ++ ['"']) =
      some (Utf7.encode folder.imapPath.toList) := by
    rw [Utf7.encode, (readShown_encodeFrom folder.imapPath.toList).1 [],
      readShown_append plain, ending, Option.map_some, Option.map_some, List.append_nil]
  refine ⟨?_, reads⟩
  rcases readShown_eq_or_shorter reads with ⟨plainName, _⟩ | shorter
  · exact plainName
  · exact absurd shorter (Nat.lt_irrefl _)

/-! ## Resolving a line -/

section Resolved

variable {casing : Casing} {store : MailStore} {tag name : Text}

theorem trimEnd_quoted (name before rest : Text) :
    Text.trimEnd (before ++ (quoted name ++ rest)) = before ++ (quoted name ++ Text.trimEnd rest) := by
  have regroup : ∀ rest, before ++ (quoted name ++ rest) =
      (before ++ '"' :: name.flatMap escapeChar) ++ '"' :: rest := by simp [quoted]
  rw [regroup, regroup, Text.trimEnd_append (by decide)]

theorem trim_quoted (name rest : Text) : Text.trim (quoted name ++ rest) = quoted name ++ Text.trimEnd rest := by
  have regroup : ∀ rest, quoted name ++ rest = '"' :: (name.flatMap escapeChar ++ '"' :: rest) := by
    simp [quoted]
  rw [regroup, regroup, Text.trim_cons (by decide), Text.trimEnd_append (by decide)]

/-- The mailbox of a line with a quoted name. -/
theorem mailboxArgument_line (name lead rest : Text) {tag command : Text}
    (tagSolid : ' ' ∉ tag)
    (commandSolid : ' ' ∉ command)
    (other : Text.eqIgnoreAsciiCase command "APPEND".toList = false) :
    mailboxArgument casing
        (Text.trimEnd (tag ++ ' ' :: (command ++ ' ' :: (lead ++ (quoted name ++ rest))))) =
      commandMailbox (casing.toUppercase command) (lead ++ (quoted name ++ Text.trimEnd rest)) := by
  have regroup : ∀ rest, tag ++ ' ' :: (command ++ ' ' :: (lead ++ (quoted name ++ rest))) =
      (tag ++ ' ' :: (command ++ ' ' :: lead)) ++ (quoted name ++ rest) := by simp
  have parsed := parseCommand_args (lead ++ (quoted name ++ Text.trimEnd rest)) tagSolid commandSolid
  rw [regroup, trimEnd_quoted, ← regroup, mailboxArgument, parseAppend_eq_none (by rw [parsed]; exact other),
    parsed]

/-- A command in capital letters is dispatched as it is. -/
theorem toUppercase_command {command : Text}
    (capital : (command.all fun char => char.toNat < 128 && char.toUpper = char) = true) :
    casing.toUppercase command = command := by
  have each : ∀ char ∈ command, char.toNat < 128 ∧ char.toUpper = char := by
    simpa using capital
  rw [casing.toUppercase_ascii fun char mem => (each char mem).1]
  exact (List.map_congr_left fun char mem => (each char mem).2).trans (List.map_id _)

theorem mailbox_status (tagSolid : ' ' ∉ tag) (items : Text) :
    mailboxArgument casing (Text.trimEnd (Naming.line tag name (.status items))) = some name := by
  have line := @mailboxArgument_line casing name [] (' ' :: items ++ crlf) tag "STATUS".toList tagSolid
    (by decide) (by decide)
  rw [toUppercase_command (by decide)] at line
  refine line.trans ?_
  show some (statusMailbox _) = _
  rw [List.nil_append, statusMailbox, trim_quoted, parseImapToken_quoted]

theorem mailbox_select (plain : PlainPath name) (tagSolid : ' ' ∉ tag) :
    mailboxArgument casing (Text.trimEnd (Naming.line tag name .select)) = some name := by
  have line := @mailboxArgument_line casing name [] crlf tag "SELECT".toList tagSolid (by decide) (by decide)
  rw [toUppercase_command (by decide)] at line
  refine line.trans ?_
  have ended : Text.trimEnd (Text.trimEnd crlf) = [] := by decide
  show some (selectMailbox _) = _
  rw [List.nil_append, selectMailbox, trim_quoted, ended, List.append_nil,
    quoted_of_plain plain.1 plain.2, Text.trimMatches_quoted plain.1]

theorem mailbox_move (tagSolid : ' ' ∉ tag) {set : Text} (sound : (Naming.move set).Sound) :
    mailboxArgument casing (Text.trimEnd (Naming.line tag name (.move set))) = some name := by
  obtain ⟨notEmpty, visible⟩ := sound
  have line := @mailboxArgument_line casing name (set ++ [' ']) crlf tag "MOVE".toList tagSolid (by decide)
    (by decide)
  rw [toUppercase_command (by decide), List.append_assoc, List.singleton_append] at line
  refine line.trans ?_
  obtain ⟨head, later, rfl⟩ := List.exists_cons_of_ne_nil notEmpty
  have ended : Text.trimEnd crlf = [] := by decide
  have trimmed : Text.trim (head :: later ++ [' '] ++ (quoted name ++ Text.trimEnd crlf)) =
      head :: later ++ ' ' :: quoted name := by
    rw [List.cons_append, List.cons_append, Text.trim_cons (visible head List.mem_cons_self),
      trimEnd_quoted, ended]
    simp [Text.trimEnd]
  have noBlank : ' ' ∉ head :: later := fun mem => absurd (visible ' ' mem) (by decide)
  have parts : moveArgs (head :: later ++ [' '] ++ (quoted name ++ Text.trimEnd crlf)) =
      (head :: later, quoted name) := by
    rw [moveArgs, trimmed, Text.splitOnce_append noBlank, Option.getD_some]
  show some (moveMailbox _) = _
  have named := parseImapToken_quoted name []
  have whole := trim_quoted name []
  rw [List.append_nil] at whole
  rw [moveMailbox, parts, whole]
  exact congrArg (fun token => some token.1) named

theorem mailbox_append (plain : PlainPath name) (tagSolid : ' ' ∉ tag) {options : Text}
    {synchronizing : Bool} {size : Nat} (fits : size < 2 ^ 64) : mailboxArgument casing
        (Text.trimEnd (Naming.line tag name (.append options synchronizing size))) = some name := by
  have regroup : ∀ ending : Text, options ++ literalMark synchronizing size ++ ending =
        options ++ '{' :: (Text.decimal size ++ if synchronizing then [] else ['+']) ++
          '}' :: ending := by simp [literalMark]
  have ended : Text.trimEnd (options ++ literalMark synchronizing size ++ crlf) =
      options ++ literalMark synchronizing size := by
    rw [regroup, Text.trimEnd_append (by decide), ← List.append_nil (options ++ literalMark _ _), regroup]
    rfl
  have whole : Text.trimEnd (Naming.line tag name (.append options synchronizing size)) =
      tag ++ ' ' :: ("APPEND".toList ++ ' ' ::
        (quoted name ++ (options ++ literalMark synchronizing size))) := by
    have line := trimEnd_quoted name (tag ++ ' ' :: ("APPEND".toList ++ [' ']))
      (options ++ literalMark synchronizing size ++ crlf)
    rw [ended] at line
    simpa [Naming.line] using line
  rw [mailboxArgument, whole, parseAppend_quoted tagSolid plain.1 plain.2 options synchronizing fits]

/-- Each line with a plain name is resolved to the folder of that name. -/
theorem namedFolder_line (plain : PlainPath name) (tagSolid : ' ' ∉ tag) {naming : Naming} (sound : naming.Sound) :
    namedFolder casing store (naming.line tag name) = folderByImapPath store (String.ofList (decodeName name)) := by
  have named : mailboxArgument casing (Text.trimEnd (naming.line tag name)) = some name := by
    cases naming with
    | select => exact mailbox_select plain tagSolid
    | status items => exact mailbox_status tagSolid items
    | move set => exact mailbox_move tagSolid sound
    | append options synchronizing size => exact mailbox_append plain tagSolid sound
  rw [namedFolder, named, Option.bind_some]

end Resolved

theorem decodeName_encode (path : Text) : decodeName (Utf7.encode path) = path := by
  rw [decodeName, Utf7.decode_encode, Option.getD_some]

theorem folderByImapPath_eq_some {store : MailStore} {path : String}
    (found : folderByImapPath store path = some folder) : folder.imapPath.toLower = path.toLower := by
  have matching := List.find?_some found
  simp only [Bool.decide_or, Bool.or_eq_true, decide_eq_true_eq] at matching
  rcases matching with same | same
  · rw [same]
  · exact same

/-- The lookup of a folder's own path is the first folder of that path. -/
theorem folderByImapPath_self_iff {store : MailStore} :
    folderByImapPath store folder.imapPath = some folder ↔ FirstOfItsName store.folderList folder := by
  have absorbs : ∀ other : FolderInfo, (other.imapPath = folder.imapPath ∨
      other.imapPath.toLower = folder.imapPath.toLower) ↔
        other.imapPath.toLower = folder.imapPath.toLower := fun other =>
    ⟨fun either => either.elim (fun same => by rw [same]) id, .inr⟩
  rw [folderByImapPath, List.find?_eq_some_iff_append]
  simp only [absorbs, or_self, decide_true, true_and, Bool.not_eq_true', decide_eq_false_iff_not]
  rfl

/-- A name that comes back is plain, and its folder the first of it. STATUS alone shows
it: it looks up what the client has read, which is shorter than the path if something was
escaped. -/
theorem RoundTrips.plain_and_first {casing : Casing} {store : MailStore}
    (comesBack : RoundTrips casing store folder) :
    PlainPath folder.imapPath.toList ∧ FirstOfItsName store.folderList folder := by
  obtain ⟨name, reads, resolves⟩ := comesBack
  obtain ⟨path, rfl, shape⟩ := readName_listedName reads
  have found := resolves [] List.not_mem_nil (.status []) trivial
  rw [namedFolder, mailbox_status List.not_mem_nil, Option.bind_some, decodeName_encode] at found
  rcases shape with ⟨plain, rfl⟩ | shorter
  · rw [String.ofList_toList] at found
    exact ⟨plain, folderByImapPath_self_iff.mp found⟩
  · have sameLength := congrArg String.length (folderByImapPath_eq_some found)
    have lowered : ∀ text : String, text.toLower.length = text.length := fun _ => String.length_map
    rw [lowered, lowered, String.length_ofList] at sameLength
    rw [String.length_toList] at shorter
    omega

/-- A folder's name comes back to it from every command exactly when its path has no
character that a quoted string escapes, and no folder before it has its path. -/
theorem roundTrips_iff (casing : Casing) (store : MailStore) (folder : FolderInfo) : RoundTrips casing store folder ↔
      PlainPath folder.imapPath.toList ∧ FirstOfItsName store.folderList folder := by
  constructor
  · exact RoundTrips.plain_and_first
  · rintro ⟨plain, first⟩
    obtain ⟨plainName, reads⟩ := readName_of_plain plain
    refine ⟨_, reads, fun tag tagSolid naming sound => ?_⟩
    rw [namedFolder_line plainName tagSolid sound, decodeName_encode, String.ofList_toList]
    exact folderByImapPath_self_iff.mpr first

/-! ## A name that is lost -/

/-- A top-level folder of the mailbox is listed under its own segment. -/
theorem exists_listed_topLevel {client : FolderClient} {mailbox : Mailbox} {tick : Nat}
    {listed : List FolderInfo} (serves : client.Serves mailbox)
    (answered : listFolders client tick = .ok listed) {folder : MailSet}
    (mem : folder ∈ mailbox.loaded) (isTop : folder.isTopLevelCustom = true)
    (named : pathSegment folder ≠ "") : ∃ info ∈ listed, info.imapPath = pathSegment folder := by
  have wellFormed : Tuta.WellFormed mailbox.loaded := mailbox.wellFormed.take folderRange
  have rooted : Rooted mailbox.loaded folder := .topLevel mem isTop
  have isCustom : folder.kind = .custom := (of_decide_eq_true isTop).1
  obtain ⟨level, inTree⟩ := (mem_indentedList_iff wellFormed).mpr rooted
  obtain ⟨ref, isRef⟩ := Option.isSome_iff_exists.mp (wellFormed.identified folder mem)
  have isId : folder.elementId = some ref.elementId := by rw [MailSet.elementId, isRef, Option.map_some]
  obtain ⟨above, isPath, isRoot⟩ := pathToFolder_of_rooted wellFormed rooted isId
  obtain rfl := isRoot.mpr (mem_roots_iff.mpr ⟨mem, .inr isTop⟩)
  have path : imapPath (.new mailbox.loaded) ref.elementId = pathSegment folder := by
    rw [imapPath, isPath]
    exact String.intercalate_singleton
  have isInfo : ∃ info, folderInfo (.new mailbox.loaded) folder = some info ∧
      info.imapPath = pathSegment folder := by
    rw [folderInfo, if_pos (.inl isCustom), isRef]
    dsimp only
    rw [if_neg (path ▸ named)]
    exact ⟨_, rfl, path⟩
  obtain ⟨info, isInfo, samePath⟩ := isInfo
  rw [listFolders_eq serves answered]
  exact ⟨info, List.mem_filterMap.mpr ⟨(level, folder), inTree, isInfo⟩, samePath⟩

/-- A mailbox with a folder whose name has a quote. -/
def quotingMailbox : Mailbox where
  listId := "folders"
  mailSets := [sampleMailSet "a\"b" 0 none]
  wellFormed := { identified := by decide, distinct := by decide, systemTop := by decide }

/-- The folder is listed, and no client gets back to it by the name that is shown. -/
theorem quoted_name_is_lost : ∃ listed, listFolders (servingClient quotingMailbox) 0 = .ok listed ∧
      ∃ folder ∈ listed, ¬ RoundTrips .ascii { MailStore.new with folderList := listed } folder := by
  have segment : pathSegment (sampleMailSet "a\"b" 0 none) = "a\"b" := by
    apply String.toList_injective
    simp [pathSegment, sampleMailSet, MailSet.kind, systemImapName, imapDelimiter]
  obtain ⟨listed, answered⟩ := servingClient_answers quotingMailbox 0
  obtain ⟨folder, isListed, path⟩ := @exists_listed_topLevel _ _ _ _
    (servingClient_serves quotingMailbox) answered (sampleMailSet "a\"b" 0 none) (by decide) (by decide)
    (by rw [segment]; decide)
  refine ⟨listed, answered, folder, isListed, fun comesBack => ?_⟩
  have plain := comesBack.plain_and_first.1
  rw [path, segment] at plain
  exact absurd plain (by decide)

end TutaBridge.Imap
