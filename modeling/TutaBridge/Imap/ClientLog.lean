import TutaBridge.Imap.Gate
import TutaBridge.Std.TwoRuns

/-!
# Client lines in the log

Each line of a client is logged with its credentials cut out. The words the log is cut by
are parted by any white space, the pieces a command is made of by single blanks; the
credentials of a LOGIN stay out of the log exactly if the words before them are a tag and
LOGIN, or a tag, AUTHENTICATE and another one.
-/

namespace TutaBridge.Imap

open TutaBridge.Std

/-- What is logged in place of credentials. -/
def credentials : Text := "<credentials>".toList

/-- `redact_credentials`. -/
def redactCredentials (line : Text) (awaitingAuth : Bool) : Text :=
  if awaitingAuth then credentials
  else
    match Text.words line with
    | tag :: verb :: rest =>
      if Text.eqIgnoreAsciiCase verb "LOGIN".toList then tag ++ ' ' :: (verb ++ ' ' :: credentials)
      else if Text.eqIgnoreAsciiCase verb "AUTHENTICATE".toList then
        match rest with
        | mechanism :: _ :: _ =>
          tag ++ ' ' :: (verb ++ ' ' :: (mechanism ++ ' ' :: credentials))
        | _ => line
      else line
    | _ => line

/-- A line that a connection handles, without the white space at its end. -/
structure ClientLine where
  connection : Connection
  line : Text
  trimmed : Text.trimEnd line = line

namespace ClientLine

/-- The line as it is logged. -/
def logged (said : ClientLine) : Text :=
  (if said.connection.session.idleTag.isSome then "IMAP C (idle): " else "IMAP C: ").toList ++
    redactCredentials said.line said.connection.authTag.isSome

/-- The line is handled as the answer to AUTHENTICATE. -/
def IsAnswer (said : ClientLine) : Prop :=
  said.connection.session.idleTag = none ∧ said.connection.authTag.isSome

/-- The line is handled as a LOGIN with arguments. -/
def IsLogin (casing : Casing) (said : ClientLine) : Prop :=
  said.connection.commandOf casing said.line = some .login ∧ (Text.opening said.line).isSome

instance (casing : Casing) (said : ClientLine) : Decidable (said.IsLogin casing) :=
  inferInstanceAs (Decidable (_ ∧ _))

/-- The lines are the same up to the credentials in them. -/
def SameButCredentials (casing : Casing) (said other : ClientLine) : Prop :=
  said.IsAnswer ∧ other.IsAnswer ∨ said.IsLogin casing ∧ other.IsLogin casing ∧
      Text.opening said.line = Text.opening other.line

instance (casing : Casing) (said other : ClientLine) : Decidable (said.SameButCredentials casing other) :=
  inferInstanceAs (Decidable ((_ ∧ _) ∧ _ ∧ _ ∨ (_ ∧ _) ∧ (_ ∧ _) ∧ _))

/-- The lines are the same, or the same up to the credentials in them. -/
def Matches (casing : Casing) (said other : ClientLine) : Prop :=
  said.line = other.line ∨ said.SameButCredentials casing other

instance (casing : Casing) (said other : ClientLine) : Decidable (said.Matches casing other) :=
  inferInstanceAs (Decidable (_ ∨ _))

end ClientLine

/-- The words by which credentials behind them are found: a tag and LOGIN, or a tag,
AUTHENTICATE and another one. -/
def Marks : List Text → Prop
  | _ :: verb :: more =>
    Text.eqIgnoreAsciiCase verb "LOGIN".toList ∨ Text.eqIgnoreAsciiCase verb "AUTHENTICATE".toList ∧ more ≠ []
  | _ => False

instance : ∀ words, Decidable (Marks words)
  | [] => .isFalse id
  | [_] => .isFalse id
  | _ :: _ :: _ => inferInstanceAs (Decidable (_ ∨ _ ∧ _))

/-- The words before the arguments mark them as credentials. -/
def Marked (line : Text) : Prop :=
  ∃ opening ∈ Text.opening line, Marks (Text.words opening.1 ++ Text.words opening.2)

instance (line : Text) : Decidable (Marked line) :=
  inferInstanceAs (Decidable (∃ opening ∈ Text.opening line, _))

/-! ## One line -/

section Lines

variable {casing : Casing} {line other : Text}

/-- Lines whose marked words are the same are logged the same. -/
theorem redactCredentials_of_marks {marks later later' : List Text} (marked : Marks marks)
    (isLine : Text.words line = marks ++ later) (isOther : Text.words other = marks ++ later')
    (notEmpty : later ≠ []) (notEmpty' : later' ≠ []) :
    redactCredentials other false = redactCredentials line false := by
  obtain ⟨word, rest, rfl⟩ := List.exists_cons_of_ne_nil notEmpty
  obtain ⟨word', rest', rfl⟩ := List.exists_cons_of_ne_nil notEmpty'
  rcases marks with - | ⟨tag, - | ⟨verb, more⟩⟩
  · exact marked.elim
  · exact marked.elim
  · rw [redactCredentials, redactCredentials, isLine, isOther]
    dsimp only [List.cons_append]
    by_cases isLogin : Text.eqIgnoreAsciiCase verb "LOGIN".toList
    · rw [if_pos isLogin, if_pos isLogin]
    · obtain ⟨isAuthenticate, more'⟩ := marked.resolve_left isLogin
      obtain ⟨mechanism, extra, rfl⟩ := List.exists_cons_of_ne_nil more'
      rw [if_neg isLogin, if_neg isLogin, if_pos isAuthenticate, if_pos isAuthenticate]
      cases extra <;> rfl

/-- Where the words before it do not mark it, a single word is logged. -/
theorem redactCredentials_of_not_marks {marks : List Text} {word : Text} (unmarked : ¬ Marks marks)
    (isLine : Text.words line = marks ++ [word])
    (noLogin : Text.eqIgnoreAsciiCase word "LOGIN".toList = false)
    (noAuthenticate : Text.eqIgnoreAsciiCase word "AUTHENTICATE".toList = false) :
    redactCredentials line false = line := by
  rw [redactCredentials, isLine, if_neg Bool.false_ne_true]
  rcases marks with - | ⟨tag, - | ⟨verb, more⟩⟩
  · rfl
  · dsimp only [List.cons_append, List.nil_append]
    rw [noLogin, noAuthenticate, if_neg Bool.false_ne_true, if_neg Bool.false_ne_true]
  · obtain ⟨noLogin, noMechanism⟩ := not_or.mp unmarked
    dsimp only [List.cons_append]
    rw [if_neg noLogin]
    split
    next isAuthenticate =>
      cases more with
      | nil => rfl
      | cons mechanism extra => exact absurd ⟨isAuthenticate, List.cons_ne_nil _ _⟩ noMechanism
    · rfl

/-- A line of a command is logged by its words alone. -/
theorem ClientLine.logged_of_isLogin {said : ClientLine} (isLogin : said.IsLogin casing) :
    said.logged = "IMAP C: ".toList ++ redactCredentials said.line false := by
  obtain ⟨notIdle, notAwaiting, -⟩ := Connection.commandOf_eq_some isLogin.1
  rw [logged, notIdle, notAwaiting]
  rfl

/-- A LOGIN is not the answer to AUTHENTICATE. -/
theorem ClientLine.not_isAnswer {said : ClientLine} (isLogin : said.IsLogin casing) : ¬ said.IsAnswer := by
  rintro ⟨-, awaiting⟩
  obtain ⟨-, notAwaiting, -⟩ := Connection.commandOf_eq_some isLogin.1
  rw [notAwaiting] at awaiting
  cases awaiting

theorem ClientLine.logged_of_isAnswer {said : ClientLine} (isAnswer : said.IsAnswer) :
    said.logged = "IMAP C: ".toList ++ credentials := by
  obtain ⟨notIdle, awaiting⟩ := isAnswer
  rw [logged, notIdle, awaiting]
  rfl

/-- LOGINs that differ in their arguments are logged the same if their words mark them. -/
theorem ClientLine.logged_eq_of_marked {said other : ClientLine}
    (same : said.SameButCredentials casing other) (marked : said.IsLogin casing → Marked said.line) :
    other.logged = said.logged := by
  rcases same with ⟨isAnswer, isAnswer'⟩ | ⟨isLogin, isLogin', sameOpening⟩
  · rw [logged_of_isAnswer isAnswer, logged_of_isAnswer isAnswer']
  · obtain ⟨⟨first, second⟩, opens, marks⟩ := marked isLogin
    obtain ⟨later, notEmpty, isLine⟩ := Text.words_of_opening opens said.trimmed
    obtain ⟨later', notEmpty', isOther⟩ := Text.words_of_opening (sameOpening ▸ opens) other.trimmed
    rw [logged_of_isLogin isLogin, logged_of_isLogin isLogin',
      redactCredentials_of_marks marks isLine isOther notEmpty notEmpty']

/-- A LOGIN with a single character as its arguments. -/
theorem exists_login {said : ClientLine} (isLogin : said.IsLogin casing) {first second : Text}
    (opens : Text.opening said.line = some (first, second)) {char : Char} (visible : Text.isWhitespace char = false) :
    ∃ other : ClientLine, other.line = first ++ ' ' :: (second ++ [' ', char]) ∧
      said.SameButCredentials casing other := by
  obtain ⟨firstSolid, secondSolid, rest, isLine⟩ := Text.opening_eq_some_iff.mp opens
  obtain ⟨notIdle, notAwaiting, noAppend, verb⟩ := Connection.commandOf_eq_some isLogin.1
  have isCommand (args : Text) :
      parseCommand (first ++ ' ' :: (second ++ ' ' :: args)) = ⟨first, second, args⟩ :=
    parseCommand_args args firstSolid secondSolid
  have opens' : Text.opening (first ++ ' ' :: (second ++ [' ', char])) = some (first, second) :=
    Text.opening_eq_some_iff.mpr ⟨firstSolid, secondSolid, [char], rfl⟩
  have trimmed : Text.trimEnd (first ++ ' ' :: (second ++ [' ', char])) =
      first ++ ' ' :: (second ++ [' ', char]) := by
    have cut := @Text.trimEnd_append (first ++ ' ' :: (second ++ [' '])) [] char visible
    have nothing : Text.trimEnd [] = [] := rfl
    simpa [nothing] using cut
  rw [isLine, isCommand] at verb
  have otherName : Text.eqIgnoreAsciiCase second "APPEND".toList = false := by
    by_contra isAppend
    have upper := casing.toUppercase_of_eqIgnoreAsciiCase (Bool.eq_true_of_not_eq_false isAppend)
      (Text.forall_ascii (by decide))
    rw [verbOf, upper] at verb
    exact absurd verb (by decide)
  have noAppend' : parseAppend (first ++ ' ' :: (second ++ [' ', char])) = none :=
    parseAppend_eq_none (by rw [isCommand [char]]; exact otherName)
  refine ⟨⟨said.connection, _, trimmed⟩, rfl, .inr ⟨isLogin, ⟨?_, by rw [opens']; rfl⟩, ?_⟩⟩
  · rw [Connection.commandOf, if_neg (by simp [notIdle, notAwaiting, noAppend']), isCommand [char], verb]
  · rw [opens, opens']

/-- The log of a LOGIN does not depend on its arguments exactly if the words before them
mark them. -/
theorem ClientLine.logged_eq_iff {said : ClientLine} (isLogin : said.IsLogin casing) :
    (∀ other, said.SameButCredentials casing other → other.logged = said.logged) ↔ Marked said.line := by
  refine ⟨fun same => ?_, fun marked other same => logged_eq_of_marked same fun _ => marked⟩
  obtain ⟨⟨first, second⟩, opens⟩ := Option.isSome_iff_exists.mp isLogin.2
  refine ⟨_, opens, ?_⟩
  by_contra unmarked
  obtain ⟨one, isOne, sameOne⟩ := @exists_login casing said isLogin first second opens 'x' (by decide)
  obtain ⟨two, isTwo, sameTwo⟩ := @exists_login casing said isLogin first second opens 'y' (by decide)
  have logs {other : ClientLine} {char : Char}
      (isOther : other.line = first ++ ' ' :: (second ++ [' ', char]))
      (sameOther : said.SameButCredentials casing other) (single : Text.words [char] = [[char]])
      (noLogin : Text.eqIgnoreAsciiCase [char] "LOGIN".toList = false)
      (noAuthenticate : Text.eqIgnoreAsciiCase [char] "AUTHENTICATE".toList = false) :
      other.logged = "IMAP C: ".toList ++ (first ++ ' ' :: (second ++ [' ', char])) := by
    have isLogin' : other.IsLogin casing := by
      rcases sameOther with ⟨isAnswer, -⟩ | ⟨-, isLogin', -⟩
      · exact absurd isAnswer (not_isAnswer isLogin)
      · exact isLogin'
    rw [logged_of_isLogin isLogin', isOther]
    exact congrArg ("IMAP C: ".toList ++ ·)
      (redactCredentials_of_not_marks unmarked (Text.words_single single) noLogin noAuthenticate)
  have loggedOne := logs isOne sameOne (by decide) (by decide) (by decide)
  have loggedTwo := logs isTwo sameTwo (by decide) (by decide) (by decide)
  rw [same one sameOne] at loggedOne
  rw [same two sameTwo, loggedOne] at loggedTwo
  simp at loggedTwo

end Lines

/-! ## Runs -/

/-- What decides how a line is logged: whether the client idles, and whether an answer to
AUTHENTICATE is awaited. -/
structure Mode where
  idles : Bool
  awaits : Bool

def Connection.mode (connection : Connection) : Mode :=
  ⟨connection.session.idleTag.isSome, connection.authTag.isSome⟩

/-- The mode behind a line. -/
def Mode.next (casing : Casing) (mode : Mode) (line : Text) : Mode :=
  if mode.idles then { mode with idles := !Text.eqIgnoreAsciiCase line "DONE".toList }
  else if mode.awaits then { mode with awaits := false }
  else if (parseAppend line).isSome then mode
  else
    match verbOf casing (parseCommand line).command with
    | .authenticate =>
      { mode with
        awaits := Text.eqIgnoreAsciiCase (Text.trim (parseCommand line).args) "PLAIN".toList }
    | .idle => { mode with idles := true }
    | _ => mode

/-- The lines that are handled when something arrives. -/
def Connection.hear (bridge : Bridge) (connection : Connection) (arrival : Arrival) :
    List ClientLine × Connection :=
  ((connection.completes arrival).toList.map fun line =>
      ⟨connection, Text.trimEnd line, Text.trimEnd_trimEnd line⟩,
    (connection.receive bridge arrival).2)

/-- The lines that a connection handles, from when it was opened. -/
def clientLines (bridge : Bridge) (passwordHash : Option String) (arrivals : List Arrival) :
    List ClientLine :=
  (run (Connection.hear bridge) (.opened passwordHash) arrivals).1

/-- What is logged of them. -/
def clientLog (bridge : Bridge) (passwordHash : Option String) (arrivals : List Arrival) : List Text :=
  (clientLines bridge passwordHash arrivals).map ClientLine.logged

namespace Connection

variable {bridge : Bridge} {connection : Connection} {arrival : Arrival}

theorem mode_endIfLogout (done : List Text × Connection) : (endIfLogout done).2.mode = done.2.mode := by
  unfold endIfLogout
  split <;> rfl

theorem mode_beginAppend {contents : Contents} (request : AppendRequest) :
    (connection.beginAppend contents request).2.mode = connection.mode := by
  rw [beginAppend]
  split
  · rfl
  · split <;> rfl

theorem mode_handleIdle {tag : String} (line : Text) (isIdle : connection.session.idleTag = some tag) :
    (connection.handleIdle tag line).2.mode =
      { connection.mode with idles := !Text.eqIgnoreAsciiCase line "DONE".toList } := by
  rw [handleIdle]
  split
  next done => rw [done]; rfl
  next other =>
    rw [Bool.eq_false_of_not_eq_true other, mode, isIdle]
    rfl

theorem mode_handleAuthResponse (line : Text) :
    (connection.handleAuthResponse line).2.mode = { connection.mode with awaits := false } := by
  unfold handleAuthResponse
  split
  next noTag => rw [mode, noTag]; rfl
  · dsimp only
    split
    · rfl
    · split
      · rfl
      · split <;> rfl

theorem mode_handleCommand {casing : Casing} {contents : Contents} (line : CommandLine)
    (notAwaiting : connection.authTag = none) :
    (connection.handleCommand casing contents line).2.mode =
      match verbOf casing line.command with
      | .authenticate =>
        { connection.mode with
          awaits := Text.eqIgnoreAsciiCase (Text.trim line.args) "PLAIN".toList }
      | .idle => { connection.mode with idles := true }
      | _ => connection.mode := by
  unfold handleCommand
  cases verbOf casing line.command with
  | authenticate =>
    dsimp only
    rw [cmdAuthenticate]
    split
    next isPlain => rw [isPlain]; rfl
    next other =>
      rw [Bool.eq_false_of_not_eq_true other, mode, notAwaiting]
      rfl
  | login =>
    dsimp only
    rw [cmdLogin]
    split <;> rfl
  | select =>
    dsimp only
    rw [cmdSelect]
    split
    · rfl
    · split <;> rfl
  | message =>
    dsimp only
    rw [cmdMessage]
    split <;> rfl
  | capability | noop | logout | list | status | close | copy | idle | namespaces | unknown => rfl

/-- What a line does to the mode is told by the mode and the line. -/
theorem mode_handleLine {casing : Casing} {contents : Contents} (line : Text) :
    (connection.handleLine casing contents line).2.mode = connection.mode.next casing line := by
  rw [Mode.next]
  unfold handleLine
  split
  next tag isIdle =>
    have idles : connection.mode.idles = true := by simp [mode, isIdle]
    rw [if_pos idles]
    exact mode_handleIdle line isIdle
  next notIdle =>
    have idlesNot : ¬ connection.mode.idles = true := by simp [mode, notIdle]
    rw [if_neg idlesNot]
    by_cases awaiting : connection.authTag.isSome
    · have awaits : connection.mode.awaits = true := awaiting
      rw [if_pos awaiting, if_pos awaits, mode_endIfLogout, mode_handleAuthResponse]
    · have awaitsNot : ¬ connection.mode.awaits = true := awaiting
      rw [if_neg awaiting, if_neg awaitsNot]
      cases isAppend : parseAppend line with
      | some request =>
        dsimp only
        rw [Option.isSome_some, if_pos rfl, mode_beginAppend]
      | none =>
        dsimp only
        rw [Option.isSome_none, if_neg Bool.false_ne_true, mode_endIfLogout]
        exact mode_handleCommand _ (by simpa using awaiting)

theorem mode_receiveChange : (connection.receiveChange bridge).2.mode = connection.mode := by
  have idleTag_checked (read reread : Store.MailStore) (session : ImapSession) :
      (session.checkNewMail read reread).2.idleTag = session.idleTag := by
    unfold ImapSession.checkNewMail
    split
    · rfl
    · dsimp only
      split <;> rfl
  rw [receiveChange]
  split
  · dsimp only [mode, next]
    rw [idleTag_checked]
  · rfl

theorem mode_endLine_of_invalid (invalid : Utf8.decode connection.pending = none) :
    (connection.endLine bridge).2.mode = connection.mode := by
  rw [endLine, invalid]
  rfl

theorem mode_endTail (request : AppendRequest) (literal : List UInt8) :
    (connection.endTail bridge request literal).2.mode = connection.mode := by
  rw [endTail]
  split
  · rfl
  · rw [finishAppend]
    split <;> rfl

theorem mode_endLiteral : (connection.endLiteral bridge).2.mode = connection.mode := by
  rw [endLiteral]
  split
  · exact mode_endTail _ _
  · rfl

/-- An arrival that completes no line leaves the mode as it is. -/
theorem mode_of_not_completes (incomplete : connection.completes arrival = none) :
    (connection.receive bridge arrival).2.mode = connection.mode := by
  cases arrival with
  | octet byte =>
    rw [receive]
    unfold receiveOctet
    split
    next isLine =>
      split
      next isLineFeed =>
        rw [completes, if_pos ⟨isLine, isLineFeed⟩, Option.map_eq_none_iff] at incomplete
        exact mode_endLine_of_invalid incomplete
      · rfl
    · split <;> rfl
    · split
      · exact mode_endTail _ _
      · rfl
    · rfl
  | storeChanged => exact mode_receiveChange
  | closed =>
    rw [receive]
    unfold receiveEnd
    split
    next isLine =>
      split
      · rfl
      next begun =>
        rw [completes, if_pos ⟨isLine, begun⟩, Option.map_eq_none_iff] at incomplete
        exact mode_endLiteral.trans (mode_endLine_of_invalid incomplete)
    · rfl
    · exact mode_endTail _ _
    · rfl

/-- A completed line is trimmed at its end. -/
theorem trimEnd_of_completes {line : Text} (completed : connection.completes arrival = some line) :
    Text.trimEnd line = line := by
  cases arrival with
  | octet byte =>
    rw [completes] at completed
    split at completed
    · obtain ⟨raw, -, rfl⟩ := Option.map_eq_some_iff.mp completed
      exact Text.trimEnd_trimEnd raw
    · cases completed
  | storeChanged => cases completed
  | closed =>
    rw [completes] at completed
    split at completed
    · obtain ⟨raw, -, rfl⟩ := Option.map_eq_some_iff.mp completed
      exact Text.trimEnd_trimEnd raw
    · cases completed

end Connection

namespace ClientLine

/-- The mode behind the line. -/
def left (casing : Casing) (said : ClientLine) : Mode := said.connection.mode.next casing said.line

/-- Each line that is handled leads from the mode it finds to the mode it leaves. -/
theorem leads_hear (bridge : Bridge) (connection : Connection) (arrival : Arrival) :
    Leads (·.connection.mode) (left bridge.casing) connection.mode
      (connection.hear bridge arrival).1 (connection.hear bridge arrival).2.mode := by
  unfold Connection.hear
  cases completed : connection.completes arrival with
  | none =>
    rw [Connection.mode_of_not_completes completed]
    exact .nil _
  | some line =>
    refine .single rfl ?_
    have trimmed := Connection.trimEnd_of_completes completed
    rcases (Connection.receive_completed completed).2 with goesOn | stops
    · rw [goesOn bridge, left]
      dsimp only
      rw [trimmed]
      exact (@Connection.mode_handleLine connection.next _ _ line).symm
    · rw [stops bridge, left]
      dsimp only
      rw [trimmed]
      exact (Connection.mode_endLiteral.trans (@Connection.mode_handleLine connection.next _ _ line)).symm

variable {casing : Casing} {said other : ClientLine}

theorem left_of_isAnswer (isAnswer : said.IsAnswer) : said.left casing = ⟨false, false⟩ := by
  obtain ⟨notIdle, awaiting⟩ := isAnswer
  rw [left, Mode.next, Connection.mode, notIdle, awaiting]
  rfl

theorem left_of_isLogin (isLogin : said.IsLogin casing) : said.left casing = said.connection.mode := by
  obtain ⟨notIdle, notAwaiting, noAppend, verb⟩ := Connection.commandOf_eq_some isLogin.1
  rw [left, Mode.next, Connection.mode, notIdle, notAwaiting, noAppend, verb]
  rfl

/-- Lines that are the same but for credentials leave the same mode. -/
theorem left_eq (same : said.Matches casing other) (sameMode : said.connection.mode = other.connection.mode) :
    said.left casing = other.left casing := by
  rcases same with sameLine | ⟨isAnswer, isAnswer'⟩ | ⟨isLogin, isLogin', -⟩
  · rw [left, left, sameLine, sameMode]
  · rw [left_of_isAnswer isAnswer, left_of_isAnswer isAnswer']
  · rw [left_of_isLogin isLogin, left_of_isLogin isLogin', sameMode]

theorem logged_eq_of_line (sameLine : said.line = other.line)
    (sameMode : said.connection.mode = other.connection.mode) : said.logged = other.logged := by
  obtain ⟨sameIdle, sameAwaiting⟩ := Mode.mk.inj sameMode
  rw [logged, logged, sameLine, sameIdle, sameAwaiting]

end ClientLine

/-- Two runs whose lines are the same but for credentials log the same, if the words before
the arguments mark each LOGIN of the first one. -/
theorem clientLog_eq {bridge bridge' : Bridge} (sameCasing : bridge'.casing = bridge.casing)
    {passwordHash passwordHash' : Option String} {arrivals arrivals' : List Arrival}
    (same : List.Forall₂ (ClientLine.Matches bridge.casing)
      (clientLines bridge passwordHash arrivals) (clientLines bridge' passwordHash' arrivals'))
    (marked : ∀ said ∈ clientLines bridge passwordHash arrivals, said.IsLogin bridge.casing → Marked said.line) :
    clientLog bridge passwordHash arrivals = clientLog bridge' passwordHash' arrivals' := by
  have leads := Leads.of_run (ClientLine.leads_hear bridge) (.opened passwordHash) arrivals
  have leads' := Leads.of_run (ClientLine.leads_hear bridge') (.opened passwordHash') arrivals'
  rw [sameCasing] at leads'
  have alike := Leads.forall₂
    (fun said other same => @ClientLine.left_eq bridge.casing said other same) leads leads' rfl same
  rw [clientLog, clientLog, ← List.forall₂_eq_eq_eq, List.forall₂_map_left_iff, List.forall₂_map_right_iff]
  refine ((List.forall₂_and_left _ _).mpr ⟨marked, alike⟩).imp ?_
  rintro said other ⟨marked, sameLine | sameOpen, sameMode⟩
  · exact ClientLine.logged_eq_of_line sameLine sameMode
  · exact (ClientLine.logged_eq_of_marked sameOpen marked).symm

/-! ## A LOGIN without a tag -/

/-- A LOGIN with a tag and a password. -/
def taggedLogin (tag password : String) : List Arrival :=
  octets (Utf8.encode (tag.toList ++ " LOGIN me ".toList ++ password.toList ++ crlf))

theorem forall₂_of_zip {α β : Type} {Related : α → β → Prop} {items : List α} {others : List β}
    (sameLength : items.length = others.length) (related : ∀ pair ∈ items.zip others, Related pair.1 pair.2) :
    List.Forall₂ Related items others :=
  List.forall₂_iff_zip.mpr ⟨sameLength, fun mem => related _ mem⟩

/-- A LOGIN without a tag is accepted and logged with the password. -/
theorem blank_tag_login_is_logged : List.Forall₂ (ClientLine.Matches .ascii)
        (clientLines (.fixed .empty) (some "secret") (taggedLogin "" "secret"))
        (clientLines (.fixed .empty) (some "secret") (taggedLogin "" "sesame")) ∧
      (runConnectionLoop (.fixed .empty) (.opened (some "secret"))
        (taggedLogin "" "secret")).2.session.state = .authenticated ∧
      clientLog (.fixed .empty) (some "secret") (taggedLogin "" "secret") =
        ["IMAP C:  LOGIN me secret".toList] ∧
      clientLog (.fixed .empty) (some "secret") (taggedLogin "" "sesame") =
        ["IMAP C:  LOGIN me sesame".toList] :=
  ⟨forall₂_of_zip (by decide +kernel) (by decide +kernel), by decide +kernel, by decide +kernel,
    by decide +kernel⟩

end TutaBridge.Imap
