import TutaBridge.Imap.ClientLog
import TutaBridge.Smtp.Connection

/-!
# Client lines in the log

What an SMTP session logs of its client's lines. In an AUTH exchange every line is a
credential; the initial response of an AUTH stays out of the log exactly if AUTH and
another word stand before it. Behind an AUTH that fails the client's mail is refused, so
what follows is read in another mode than behind one that succeeds: two runs log the same
where they are authenticated alike.
-/

namespace TutaBridge.Smtp

open TutaBridge.Std TutaBridge.Mail
open TutaBridge.Imap (credentials)

variable (server : Server) {said : ClientLine}

/-- `redact_credentials`. -/
def redactCredentials (line : Text) (step : AuthStep) : Text :=
  if step ≠ .none then credentials
  else
    match Text.words line with
    | verb :: mechanism :: _ :: _ =>
      if Text.eqIgnoreAsciiCase verb "AUTH".toList then
        verb ++ ' ' :: (mechanism ++ ' ' :: credentials)
      else line
    | _ => line

/-- A line that a session handles, without the white space at its end. -/
structure ClientLine where
  session : Session
  line : Text
  trimmed : Text.trimEnd line = line

namespace ClientLine

/-- The line as it is logged. -/
def logged (said : ClientLine) : Text :=
  "SMTP C: ".toList ++ redactCredentials said.line said.session.authStep

/-- The line is handled as part of an AUTH exchange. -/
def InExchange (said : ClientLine) : Prop := said.session.authStep ≠ .none

/-- The line is handled as an AUTH with an initial response. -/
def IsAuth (casing : Casing) (said : ClientLine) : Prop :=
  said.session.authStep = .none ∧ said.session.inData = false ∧
    verbOf casing said.line = .auth ∧ (Text.opening said.line).isSome

/-- The lines are the same up to the credentials in them. -/
def SameButCredentials (casing : Casing) (said other : ClientLine) : Prop :=
  said.InExchange ∧ other.InExchange ∨
    said.IsAuth casing ∧ other.IsAuth casing ∧ Text.opening said.line = Text.opening other.line

/-- The lines are the same, or the same up to the credentials in them. -/
def Matches (casing : Casing) (said other : ClientLine) : Prop :=
  said.line = other.line ∨ said.SameButCredentials casing other

end ClientLine

/-- The words by which credentials behind them are found: AUTH and another one. -/
def Marks : List Text → Prop
  | verb :: _ :: _ => Text.eqIgnoreAsciiCase verb "AUTH".toList
  | _ => False

/-- The words before the initial response mark it as credentials. -/
def Marked (line : Text) : Prop :=
  ∃ opening ∈ Text.opening line, Marks (Text.words opening.1 ++ Text.words opening.2)

/-! ## One line -/

section Lines

variable {casing : Casing} {line other : Text}

/-- Lines whose marked words are the same are logged the same. -/
theorem redactCredentials_of_marks {marks later later' : List Text} (marked : Marks marks)
    (isLine : Text.words line = marks ++ later) (isOther : Text.words other = marks ++ later')
    (notEmpty : later ≠ []) (notEmpty' : later' ≠ []) :
    redactCredentials other .none = redactCredentials line .none := by
  obtain ⟨word, rest, rfl⟩ := List.exists_cons_of_ne_nil notEmpty
  obtain ⟨word', rest', rfl⟩ := List.exists_cons_of_ne_nil notEmpty'
  rcases marks with - | ⟨verb, - | ⟨mechanism, more⟩⟩
  · exact marked.elim
  · exact marked.elim
  · have isAuth : Text.eqIgnoreAsciiCase verb "AUTH".toList = true := marked
    have redacted {text : Text} {word : Text} {rest : List Text}
        (isText : Text.words text = verb :: mechanism :: (more ++ word :: rest)) :
        redactCredentials text .none = verb ++ ' ' :: (mechanism ++ ' ' :: credentials) := by
      rw [redactCredentials, if_neg (not_not_intro rfl), isText]
      cases more with
      | nil => exact if_pos isAuth
      | cons _ _ => exact if_pos isAuth
    rw [redacted isLine, redacted isOther]

/-- Where the words before it do not mark it, a single word is logged. -/
theorem redactCredentials_of_not_marks {marks : List Text} {word : Text} (unmarked : ¬ Marks marks)
    (isLine : Text.words line = marks ++ [word]) : redactCredentials line .none = line := by
  rw [redactCredentials, if_neg (not_not_intro rfl), isLine]
  rcases marks with - | ⟨verb, - | ⟨mechanism, more⟩⟩
  · rfl
  · rfl
  · have noAuth : ¬ Text.eqIgnoreAsciiCase verb "AUTH".toList = true := unmarked
    cases more with
    | nil => exact if_neg noAuth
    | cons _ _ => exact if_neg noAuth

theorem ClientLine.logged_of_inExchange (inExchange : said.InExchange) :
    said.logged = "SMTP C: ".toList ++ credentials := by
  have redacted : redactCredentials said.line said.session.authStep = credentials := if_pos inExchange
  unfold logged
  rw [redacted]

theorem ClientLine.logged_of_isAuth (isAuth : said.IsAuth casing) :
    said.logged = "SMTP C: ".toList ++ redactCredentials said.line .none := by
  obtain ⟨noExchange, -⟩ := isAuth
  unfold logged
  rw [noExchange]

/-- AUTHs that differ in their initial response are logged the same if their words mark
it. -/
theorem ClientLine.logged_eq_of_marked {other : ClientLine}
    (same : said.SameButCredentials casing other) (marked : said.IsAuth casing → Marked said.line) :
    other.logged = said.logged := by
  rcases same with ⟨inExchange, inExchange'⟩ | ⟨isAuth, isAuth', sameOpening⟩
  · rw [logged_of_inExchange inExchange, logged_of_inExchange inExchange']
  · obtain ⟨⟨first, second⟩, opens, marks⟩ := marked isAuth
    obtain ⟨later, notEmpty, isLine⟩ := Text.words_of_opening opens said.trimmed
    obtain ⟨later', notEmpty', isOther⟩ := Text.words_of_opening (sameOpening ▸ opens) other.trimmed
    rw [logged_of_isAuth isAuth, logged_of_isAuth isAuth',
      redactCredentials_of_marks marks isLine isOther notEmpty notEmpty']

theorem verbOf_congr (sameHead : (Text.words other).head? = (Text.words line).head?) :
    verbOf casing other = verbOf casing line := by
  rw [verbOf, verbOf, sameHead]

theorem verbOf_auth (isAuth : (Text.words line).head? = some "AUTH".toList) : verbOf casing line = .auth := by
  have upper : casing.toUppercase "AUTH".toList = "AUTH".toList :=
    casing.toUppercase_ascii (Text.forall_ascii (by decide))
  rw [verbOf, isAuth, Option.getD_some, upper]
  decide

section

variable {said : ClientLine} (isAuth : said.IsAuth casing) {first second : Text}
    (opens : Text.opening said.line = some (first, second))

include isAuth opens

/-- An AUTH whose initial response is one character, or AUTH and a character where no word
stands before it. -/
theorem exists_auth {start : Text} {char : Char} (visible : Text.isWhitespace char = false)
    (isVerb : verbOf casing (first ++ ' ' :: (second ++ ' ' :: (start ++ [char]))) = .auth) :
    ∃ other : ClientLine, other.line = first ++ ' ' :: (second ++ ' ' :: (start ++ [char])) ∧
      other.IsAuth casing ∧ said.SameButCredentials casing other := by
  obtain ⟨firstSolid, secondSolid, -⟩ := Text.opening_eq_some_iff.mp opens
  obtain ⟨noExchange, noData, -⟩ := id isAuth
  have opens' : Text.opening (first ++ ' ' :: (second ++ ' ' :: (start ++ [char]))) = some (first, second) :=
    Text.opening_eq_some_iff.mpr ⟨firstSolid, secondSolid, start ++ [char], rfl⟩
  have trimmed : Text.trimEnd (first ++ ' ' :: (second ++ ' ' :: (start ++ [char]))) =
      first ++ ' ' :: (second ++ ' ' :: (start ++ [char])) := by
    have nothing : Text.trimEnd [] = [] := rfl
    have cut := @Text.trimEnd_append (first ++ ' ' :: (second ++ ' ' :: start)) [] char visible
    simpa [nothing] using cut
  have isAuth' : ClientLine.IsAuth casing ⟨said.session, _, trimmed⟩ :=
    ⟨noExchange, noData, isVerb, by rw [opens']; rfl⟩
  exact ⟨⟨said.session, _, trimmed⟩, rfl, isAuth', .inr ⟨isAuth, isAuth', by rw [opens, opens']⟩⟩

/-- Where the words before it do not mark it, an initial response can be logged. -/
theorem exists_logged (unmarked : ¬ Marks (Text.words first ++ Text.words second)) :
    ∃ start : Text, ∀ char : Char, Text.isWhitespace char = false →
      ∃ other : ClientLine, said.SameButCredentials casing other ∧ other.logged =
          "SMTP C: ".toList ++ (first ++ ' ' :: (second ++ ' ' :: (start ++ [char]))) := by
  have single {char : Char} (visible : Text.isWhitespace char = false) : Text.words [char] = [[char]] := by
    simp [Text.words, List.splitOnP_cons_eq_if_modifyHead, visible]
  by_cases noWords : Text.words first ++ Text.words second = []
  · refine ⟨"AUTH ".toList, fun char visible => ?_⟩
    have isLine : Text.words (first ++ ' ' :: (second ++ ' ' :: ("AUTH ".toList ++ [char]))) =
        ["AUTH".toList] ++ [[char]] := by
      have later : Text.words ("AUTH ".toList ++ [char]) = ["AUTH".toList] ++ [[char]] := by
        rw [← single visible]
        exact Text.words_append_cons (by decide) "AUTH".toList [char]
      rw [Text.words_append_cons (by decide), Text.words_append_cons (by decide), ← List.append_assoc,
        noWords, List.nil_append, later]
    obtain ⟨other, isOther, isAuth', same⟩ := exists_auth isAuth opens visible
      (verbOf_auth (by rw [isLine]; rfl))
    refine ⟨other, same, ?_⟩
    rw [ClientLine.logged_of_isAuth isAuth', isOther]
    exact congrArg ("SMTP C: ".toList ++ ·) (redactCredentials_of_not_marks id isLine)
  · refine ⟨[], fun char visible => ?_⟩
    have isLine := @Text.words_single first second char (single visible)
    obtain ⟨later, -, isSaid⟩ := Text.words_of_opening opens said.trimmed
    obtain ⟨word, rest, isWords⟩ := List.exists_cons_of_ne_nil noWords
    have isVerb : verbOf casing (first ++ ' ' :: (second ++ [' ', char])) = .auth := by
      rw [← isAuth.2.2.1]
      exact verbOf_congr (by rw [isLine, isSaid, isWords]; rfl)
    obtain ⟨other, isOther, isAuth', same⟩ := @exists_auth casing said isAuth first second opens [] char visible
      isVerb
    refine ⟨other, same, ?_⟩
    rw [ClientLine.logged_of_isAuth isAuth', isOther]
    exact congrArg ("SMTP C: ".toList ++ ·) (redactCredentials_of_not_marks unmarked isLine)

end

/-- The log of an AUTH does not depend on its initial response exactly if the words before
it mark it. -/
theorem ClientLine.logged_eq_iff (isAuth : said.IsAuth casing) :
    (∀ other, said.SameButCredentials casing other → other.logged = said.logged) ↔ Marked said.line := by
  refine ⟨fun same => ?_, fun marked other same => logged_eq_of_marked same fun _ => marked⟩
  obtain ⟨⟨first, second⟩, opens⟩ := Option.isSome_iff_exists.mp isAuth.2.2.2
  refine ⟨_, opens, ?_⟩
  by_contra unmarked
  obtain ⟨start, logs⟩ := exists_logged isAuth opens unmarked
  obtain ⟨one, sameOne, loggedOne⟩ := logs 'x' (by decide)
  obtain ⟨two, sameTwo, loggedTwo⟩ := logs 'y' (by decide)
  rw [same one sameOne] at loggedOne
  rw [same two sameTwo, loggedOne] at loggedTwo
  simp at loggedTwo

end Lines

/-! ## Runs -/

/-- What decides how a line is read. -/
structure Mode where
  state : SmtpState
  inData : Bool
  authStep : AuthStep
  authenticated : Bool

def Session.mode (session : Session) : Mode :=
  ⟨session.state, session.inData, session.authStep, session.authenticated⟩

/-- The mode behind a line. -/
def ClientLine.left (said : ClientLine) : Mode :=
  if said.session.authStep ≠ .none then (said.session.handleAuthStep server said.line).2.mode
  else if said.session.inData then
    if said.line = ['.'] then { said.session.mode with state := .greeted, inData := false }
    else said.session.mode
  else (said.session.handleCommand server said.line).2.mode

/-- The line that is handled when the octets of one arrive. -/
def Session.hear (session : Session) (raw : List UInt8) : List ClientLine × Session :=
  (if session.ended ∨ server.limits.maxLineBytes < raw.length then []
    else [⟨session, Text.trimEnd (Utf8.decodeLossy raw), Text.trimEnd_trimEnd _⟩],
    (session.handleLine server raw).2)

/-- The lines that a session handles. -/
def clientLines (lines : List (List UInt8)) : List ClientLine :=
  (run (Session.hear server) (.opened server.passwordHash) lines).1

/-- What is logged of them. -/
def clientLog (lines : List (List UInt8)) : List Text :=
  (clientLines server lines).map ClientLine.logged

theorem Session.mode_handleData {server : Server} {session : Session} (line : Text) :
    (session.handleData server line).2.mode =
      if Text.trimEnd line = ['.'] then { session.mode with state := .greeted, inData := false }
      else session.mode := by
  unfold handleData
  split
  · unfold endData
    dsimp only
    split
    · rfl
    · split <;> rfl
  · split
    · rfl
    · split <;> rfl

namespace ClientLine

/-- Each line that is handled leads from the mode it finds to the mode it leaves. -/
theorem leads_hear (session : Session) (raw : List UInt8) :
    Leads (·.session.mode)
    (left server) session.mode (session.hear server raw).1 (session.hear server raw).2.mode := by
  unfold Session.hear Session.handleLine
  dsimp only
  by_cases ended : session.ended
  · rw [if_pos (.inl ended), if_pos ended]
    exact .nil _
  · rw [if_neg ended]
    by_cases tooLong : server.limits.maxLineBytes < raw.length
    · rw [if_pos (.inr tooLong), if_pos tooLong]
      exact .nil _
    · rw [if_neg (not_or.mpr ⟨ended, tooLong⟩), if_neg tooLong]
      refine .single rfl ?_
      rw [left]
      dsimp only
      split
      · rfl
      · split
        · exact (Session.mode_handleData _).symm
        · rfl

end ClientLine

section Alike

variable {server : Server} {passwordHash : Option Text} {sendMail : Nat → ParsedMessage → Bool}
  {one two : Session} {said other : ClientLine}

/-- The modes are the same, whether authenticated or not. -/
def Mode.SameShape (mode other : Mode) : Prop :=
  mode.state = other.state ∧ mode.inData = other.inData ∧ mode.authStep = other.authStep

theorem Mode.eq_of_sameShape {mode other : Mode} (shape : mode.SameShape other)
    (authenticated : mode.authenticated = other.authenticated) : mode = other := by
  obtain ⟨state, inData, authStep⟩ := shape
  cases mode
  cases other
  simp only at state inData authStep authenticated
  rw [state, inData, authStep, authenticated]

/-- A line of an AUTH exchange moves it on, whatever the line and the password are. -/
theorem handleAuthStep_sameShape (sameMode : one.mode = two.mode) (line line' : Text) :
    (one.handleAuthStep server line).2.mode.SameShape
      (two.handleAuthStep { server with passwordHash := passwordHash, sendMail := sendMail }
        line').2.mode := by
  obtain ⟨sameState, sameInData, sameStep, -⟩ := Mode.mk.inj sameMode
  unfold Session.handleAuthStep
  rw [← sameStep]
  cases step : one.authStep with
  | waitPlainData => exact ⟨sameState, sameInData, rfl⟩
  | waitLoginUser => exact ⟨sameState, sameInData, rfl⟩
  | waitLoginPass => exact ⟨sameState, sameInData, rfl⟩
  | none => exact ⟨sameState, sameInData, sameStep⟩

/-- An AUTH is told by its mechanism and by whether it has an initial response. -/
theorem handleAuth_sameShape (sameMode : one.mode = two.mode) {line line' : Text}
    (sameMechanism : (authParts line).1 = (authParts line').1)
    (sameResponse : (authParts line).2.isSome = (authParts line').2.isSome) :
    (one.handleAuth server line).2.mode.SameShape
      (two.handleAuth { server with passwordHash := passwordHash, sendMail := sendMail } line').2.mode := by
  obtain ⟨sameState, sameInData, sameStep, -⟩ := Mode.mk.inj sameMode
  unfold Session.handleAuth
  dsimp only
  rw [← sameMechanism]
  split
  · cases response : (authParts line).2 with
    | none =>
      rw [response, Option.isSome_none] at sameResponse
      have noResponse := Option.not_isSome_iff_eq_none.mp (Bool.eq_false_iff.mp sameResponse.symm)
      rw [noResponse]
      exact ⟨sameState, sameInData, rfl⟩
    | some data =>
      rw [response, Option.isSome_some] at sameResponse
      obtain ⟨data', response'⟩ := Option.isSome_iff_exists.mp sameResponse.symm
      rw [response']
      exact ⟨sameState, sameInData, sameStep⟩
  · split
    · exact ⟨sameState, sameInData, rfl⟩
    · exact ⟨sameState, sameInData, sameStep⟩

/-- A command does the same to the mode, but for whether an AUTH succeeds. -/
theorem handleCommand_sameShape (sameMode : one.mode = two.mode) (line : Text) :
    (one.handleCommand server line).2.mode.SameShape
      (two.handleCommand { server with passwordHash := passwordHash, sendMail := sendMail } line).2.mode := by
  obtain ⟨sameState, sameInData, sameStep, sameAuthenticated⟩ := Mode.mk.inj sameMode
  unfold Session.handleCommand
  dsimp only
  rw [← sameAuthenticated, ← sameState]
  split
  · exact ⟨sameState, sameInData, sameStep⟩
  · cases verbOf server.casing line with
    | ehlo | rset => exact ⟨rfl, sameInData, sameStep⟩
    | quit => exact ⟨rfl, sameInData, sameStep⟩
    | auth => exact handleAuth_sameShape sameMode rfl rfl
    | mail =>
      dsimp only
      split
      · exact ⟨sameState, sameInData, sameStep⟩
      · exact ⟨rfl, sameInData, sameStep⟩
    | rcpt =>
      cases one.state <;> first
        | exact ⟨rfl, sameInData, sameStep⟩
        | exact ⟨sameState, sameInData, sameStep⟩
    | data =>
      cases one.state <;> first
        | exact ⟨rfl, rfl, sameStep⟩
        | exact ⟨sameState, sameInData, sameStep⟩
    | noop | unknown => exact ⟨sameState, sameInData, sameStep⟩

theorem authParts_of_opening {line first second : Text} (opens : Text.opening line = some (first, second)) :
    (authParts line).1 = second ∧ (authParts line).2.isSome := by
  obtain ⟨firstSolid, secondSolid, rest, rfl⟩ := Text.opening_eq_some_iff.mp opens
  rw [authParts, Text.splitOnce_append firstSolid]
  dsimp only
  rw [Text.splitOnce_append secondSolid]
  exact ⟨rfl, rfl⟩

theorem left_of_inExchange (inExchange : said.InExchange) :
    said.left server = (said.session.handleAuthStep server said.line).2.mode :=
  if_pos inExchange

/-- An AUTH is no command that a session refuses. -/
theorem left_of_isAuth (isAuth : said.IsAuth server.casing) :
    said.left server = (said.session.handleAuth server said.line).2.mode := by
  obtain ⟨noExchange, noData, isVerb, -⟩ := isAuth
  rw [ClientLine.left, if_neg (not_not_intro noExchange), noData, if_neg Bool.false_ne_true,
    Session.handleCommand, isVerb]
  dsimp only
  rw [if_neg]
  rintro ⟨-, isMail | isRcpt | isData⟩
  · cases isMail
  · cases isRcpt
  · cases isData

/-- Lines that are the same but for credentials leave the same mode, but for whether an AUTH
succeeds. -/
theorem left_sameShape (same : said.Matches server.casing other)
    (sameMode : said.session.mode = other.session.mode) :
    (said.left server).SameShape
      (other.left { server with passwordHash := passwordHash, sendMail := sendMail }) := by
  obtain ⟨sameState, sameInData, sameStep, -⟩ := Mode.mk.inj sameMode
  rcases same with sameLine | ⟨inExchange, inExchange'⟩ | ⟨isAuth, isAuth', sameOpening⟩
  · rw [ClientLine.left, ClientLine.left, ← sameStep, ← sameInData, ← sameLine]
    split
    · exact handleAuthStep_sameShape sameMode _ _
    · split
      · rw [sameMode]
        split <;> exact ⟨rfl, rfl, rfl⟩
      · exact handleCommand_sameShape sameMode _
  · rw [left_of_inExchange inExchange, left_of_inExchange inExchange']
    exact handleAuthStep_sameShape sameMode _ _
  · obtain ⟨⟨first, second⟩, opens⟩ := Option.isSome_iff_exists.mp isAuth.2.2.2
    obtain ⟨mechanism, response⟩ := authParts_of_opening opens
    obtain ⟨mechanism', response'⟩ := authParts_of_opening (sameOpening ▸ opens)
    rw [left_of_isAuth isAuth,
      @left_of_isAuth { server with passwordHash := passwordHash, sendMail := sendMail } other isAuth']
    exact handleAuth_sameShape sameMode (mechanism.trans mechanism'.symm) (response.trans response'.symm)

theorem logged_eq_of_line (sameLine : said.line = other.line)
    (sameMode : said.session.mode = other.session.mode) : said.logged = other.logged := by
  obtain ⟨-, -, sameStep, -⟩ := Mode.mk.inj sameMode
  unfold ClientLine.logged
  rw [sameLine, sameStep]

end Alike

/-- Two runs whose lines are the same but for credentials log the same, if they are
authenticated alike behind each line and the words before the initial response mark each
AUTH of the first one. -/
theorem clientLog_eq {server : Server} {passwordHash : Option Text}
    {sendMail : Nat → ParsedMessage → Bool} {lines lines' : List (List UInt8)}
    (sameOpen : server.passwordHash.isNone = passwordHash.isNone)
    (same : List.Forall₂ (fun said other => said.Matches server.casing other ∧
        (said.left server).authenticated =
          (other.left { server with passwordHash := passwordHash, sendMail := sendMail }).authenticated)
      (clientLines server lines)
      (clientLines { server with passwordHash := passwordHash, sendMail := sendMail } lines'))
    (marked : ∀ said ∈ clientLines server lines, said.IsAuth server.casing → Marked said.line) :
    clientLog server lines =
      clientLog { server with passwordHash := passwordHash, sendMail := sendMail } lines' := by
  have leads := Leads.of_run (ClientLine.leads_hear server) (.opened server.passwordHash) lines
  have leads' := Leads.of_run
    (ClientLine.leads_hear { server with passwordHash := passwordHash, sendMail := sendMail })
    (.opened passwordHash) lines'
  have sameStart : (Session.opened server.passwordHash).mode = (Session.opened passwordHash).mode := by
    rw [Session.opened, Session.opened, sameOpen]
  have kept (said other : ClientLine) (same : said.Matches server.casing other ∧
        (said.left server).authenticated =
          (other.left { server with passwordHash := passwordHash, sendMail := sendMail }).authenticated)
      (sameMode : said.session.mode = other.session.mode) :
      said.left server = other.left { server with passwordHash := passwordHash, sendMail := sendMail } :=
    Mode.eq_of_sameShape (left_sameShape same.1 sameMode) same.2
  have alike := Leads.forall₂ kept leads leads' sameStart same
  rw [clientLog, clientLog, ← List.forall₂_eq_eq_eq, List.forall₂_map_left_iff, List.forall₂_map_right_iff]
  refine ((List.forall₂_and_left _ _).mpr ⟨marked, alike⟩).imp ?_
  rintro said other ⟨marked, ⟨sameLine | sameOpen, -⟩, sameMode⟩
  · exact logged_eq_of_line sameLine sameMode
  · exact (ClientLine.logged_eq_of_marked sameOpen marked).symm

/-! ## Both protocols -/

/-- When credentials stay out of the log. The lines that carry some are logged without
regard to them exactly if the words before them mark them, or an answer is awaited. Two
runs of which this holds log the same throughout: of IMAP, whatever becomes of the
credentials; of SMTP, if they are authenticated alike. -/
theorem credentials_in_log (casing : Casing) :
    (∀ said : Imap.ClientLine, said.IsAnswer ∨ said.IsLogin casing →
      ((∀ other, said.SameButCredentials casing other → other.logged = said.logged) ↔
        said.IsAnswer ∨ Imap.Marked said.line)) ∧
    (∀ said : ClientLine, said.InExchange ∨ said.IsAuth casing →
      ((∀ other, said.SameButCredentials casing other → other.logged = said.logged) ↔
        said.InExchange ∨ Marked said.line)) ∧
    (∀ (bridge bridge' : Imap.Bridge) (passwordHash passwordHash' : Option String)
        (arrivals arrivals' : List Imap.Arrival), bridge.casing = casing → bridge'.casing = casing →
      List.Forall₂ (Imap.ClientLine.Matches casing) (Imap.clientLines bridge passwordHash arrivals)
        (Imap.clientLines bridge' passwordHash' arrivals') →
      (∀ said ∈ Imap.clientLines bridge passwordHash arrivals, said.IsLogin casing → Imap.Marked said.line) →
      Imap.clientLog bridge passwordHash arrivals = Imap.clientLog bridge' passwordHash' arrivals') ∧
    (∀ (server : Server) (passwordHash : Option Text) (sendMail : Nat → ParsedMessage → Bool)
        (lines lines' : List (List UInt8)), server.casing = casing →
      server.passwordHash.isNone = passwordHash.isNone →
      List.Forall₂ (fun said other => said.Matches casing other ∧ (said.left server).authenticated =
            (other.left
              { server with passwordHash := passwordHash, sendMail := sendMail }).authenticated)
        (clientLines server lines)
        (clientLines { server with passwordHash := passwordHash, sendMail := sendMail } lines') →
      (∀ said ∈ clientLines server lines, said.IsAuth casing → Marked said.line) →
      clientLog server lines =
        clientLog { server with passwordHash := passwordHash, sendMail := sendMail } lines') := by
  refine ⟨fun said carries => ?_, fun said carries => ?_, ?_, ?_⟩
  · rcases carries with isAnswer | isLogin
    · refine iff_of_true (fun other same => ?_) (.inl isAnswer)
      refine Imap.ClientLine.logged_eq_of_marked same fun isLogin => ?_
      exact absurd isAnswer (Imap.ClientLine.not_isAnswer isLogin)
    · rw [Imap.ClientLine.logged_eq_iff isLogin]
      exact (or_iff_right (Imap.ClientLine.not_isAnswer isLogin)).symm
  · rcases carries with inExchange | isAuth
    · refine iff_of_true (fun other same => ?_) (.inl inExchange)
      exact ClientLine.logged_eq_of_marked same fun isAuth => absurd isAuth.1 inExchange
    · rw [ClientLine.logged_eq_iff isAuth]
      exact (or_iff_right (not_not_intro isAuth.1)).symm
  · rintro bridge bridge' _ _ _ _ rfl sameCasing same marked
    exact Imap.clientLog_eq sameCasing same marked
  · rintro server _ _ _ _ rfl sameOpen same marked
    exact clientLog_eq sameOpen same marked

/-- LOGINs with a tag are logged the same, whether the password is right or not. -/
theorem credentials_in_log_tagged :
    Imap.clientLog (.fixed .empty) (some "secret") (Imap.taggedLogin "a" "secret") =
      Imap.clientLog (.fixed .empty) (some "secret") (Imap.taggedLogin "a" "sesame") :=
  (credentials_in_log .ascii).2.2.1 (.fixed .empty) (.fixed .empty) (some "secret") (some "secret") _ _
    rfl rfl (Imap.forall₂_of_zip (by decide +kernel) (by decide +kernel)) (by decide +kernel)

end TutaBridge.Smtp
