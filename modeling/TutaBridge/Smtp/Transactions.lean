import TutaBridge.Smtp.Connection

/-!
# Mail transactions

What a client has achieved is told by its lines and the responses to them: an AUTH that
succeeded, a MAIL and RCPTs that were accepted, a DATA block that was opened and ended. The
variables of the session follow this history, so that a message is handed over exactly at
the end of a block that fits, for the recipients of its own transaction, unless the parser panics
at the block, which ends the session.
-/

namespace TutaBridge.Smtp

open TutaBridge.Std TutaBridge.Mail

/-! ## What an exchange means -/

/-- The response to an accepted MAIL or RCPT. -/
def ok : String := "250 OK\r\n"

/-- The response that opens a DATA block. -/
def startMail : String := "354 Start mail input; end with <CRLF>.<CRLF>\r\n"

/-- The response to EHLO. -/
def greeting : String :=
  "250-TutaBridge\r\n250-AUTH PLAIN LOGIN\r\n250-8BITMIME\r\n250 SIZE 26214400\r\n"

/-- The response to a line over the cap, which ends the connection. -/
def lineTooLong : String := "500 5.5.2 line too long\r\n"

/-- The response to an AUTH that succeeds. -/
def success : String := "235 2.7.0 Authentication successful\r\n"

namespace Exchange

/-- A MAIL that was accepted. -/
def AcceptsMail (casing : Casing) (exchange : Exchange) : Prop :=
  exchange.response = some ok ∧ verbOf casing (Text.trimEnd exchange.line) = .mail

instance (casing : Casing) (exchange : Exchange) : Decidable (exchange.AcceptsMail casing) :=
  inferInstanceAs (Decidable (_ ∧ _))

/-- The address of a RCPT that was accepted. -/
def acceptedRcpt (casing : Casing) (exchange : Exchange) : Option Text :=
  if exchange.response = some ok ∧ verbOf casing (Text.trimEnd exchange.line) = .rcpt then
    some (extractAddress (Text.trimEnd exchange.line))
  else none

/-- A line that opens a DATA block. -/
def OpensData (exchange : Exchange) : Prop := exchange.response = some startMail

/-- A line behind which a transaction cannot go on. -/
def Resets (casing : Casing) (exchange : Exchange) : Prop :=
  exchange.OpensData ∨ exchange.response = some greeting ∨
    exchange.response = some ok ∧ verbOf casing (Text.trimEnd exchange.line) = .rset

/-- A lone dot, up to the white space at the end. -/
def IsDot (exchange : Exchange) : Prop := Text.trimEnd exchange.line = ['.']

end Exchange

/-! ## What a history means -/

/-- What a response asks the next line for. -/
def asksFor (response : Option String) : AuthStep :=
  if response = some "334 \r\n" then .waitPlainData
  else if response = some "334 VXNlcm5hbWU6\r\n" then .waitLoginUser
  else if response = some "334 UGFzc3dvcmQ6\r\n" then .waitLoginPass
  else .none

/-- What the next line is taken as, by the response that was sent last. -/
def waitsFor (history : List Exchange) : AuthStep := asksFor (history.getLast?.bind Exchange.response)

/-- The password that a line presents behind a history. -/
def presented (casing : Casing) (history : List Exchange) (line : Text) : Option Text :=
  match waitsFor history with
  | .waitPlainData => plainPassword (Text.trimEnd line)
  | .waitLoginUser => none
  | .waitLoginPass => loginPassword (Text.trimEnd line)
  | .none =>
    if verbOf casing (Text.trimEnd line) = .auth ∧
        casing.toUppercase (authParts (Text.trimEnd line)).1 = "PLAIN".toList then
      (authParts (Text.trimEnd line)).2.bind plainPassword
    else none

/-- An AUTH that succeeds with the password. -/
def Succeeds (casing : Casing) (password : Text) (history : List Exchange) (exchange : Exchange) : Prop :=
  presented casing history exchange.line = some password ∧ exchange.response = some success

/-- An AUTH has succeeded with the server's password, if there is one. -/
def Authorized (server : Server) (history : List Exchange) : Prop :=
  ∀ password, password ≠ [] → server.passwordHash = some password →
    ∃ before exchange after, history = before ++ exchange :: after ∧
      Succeeds server.casing password before exchange

/-- A MAIL was accepted from an authorized client, and the transaction it began is open. -/
def InTransaction (server : Server) (history : List Exchange) : Prop :=
  ∃ earlier mail later, history = earlier ++ mail :: later ∧ mail.AcceptsMail server.casing ∧
    Authorized server earlier ∧
    ∀ exchange ∈ later, ¬ exchange.AcceptsMail server.casing ∧ ¬ exchange.Resets server.casing

/-- The addresses of the RCPTs accepted since the last accepted MAIL. -/
def recipients (casing : Casing) (history : List Exchange) : List Text :=
  (history.rtakeWhile fun exchange => ¬ exchange.AcceptsMail casing).filterMap (Exchange.acceptedRcpt casing)

/-- A DATA block is open: what came before the line that opened it, and its lines so far,
which get no response. -/
def InBlock (history start block : List Exchange) : Prop :=
  ∃ opening, history = start ++ opening :: block ∧ opening.OpensData ∧
    ∀ exchange ∈ block, exchange.response = none

/-- The message of a block. -/
def blockText (block : List Exchange) : Text := block.flatMap fun exchange => unstuff exchange.line

def blockSize (block : List Exchange) : Nat := (Utf8.encode (blockText block)).length

/-- Behind a history the exchange ends a block that fits. A line over the cap ends none. -/
def EndsBlock (server : Server) (history : List Exchange) (exchange : Exchange) (block : List Exchange) :
    Prop :=
  exchange.response ≠ some lineTooLong ∧ exchange.IsDot ∧
    (∃ start, InBlock history start block) ∧ blockSize block ≤ server.limits.maxMessageBytes

/-! ## Growing a history -/

section History

variable {server : Server} {history start block : List Exchange} {exchange : Exchange}

theorem Authorized.concat (authorized : Authorized server history) (exchange : Exchange) :
    Authorized server (history ++ [exchange]) := by
  intro password nonEmpty isPassword
  obtain ⟨before, success, after, rfl, succeeds⟩ := authorized password nonEmpty isPassword
  exact ⟨before, success, after ++ [exchange], by simp, succeeds⟩

theorem InTransaction.concat (open' : InTransaction server history)
    (noMail : ¬ exchange.AcceptsMail server.casing) (noReset : ¬ exchange.Resets server.casing) :
    InTransaction server (history ++ [exchange]) := by
  obtain ⟨earlier, mail, later, rfl, accepts, authorized, quiet⟩ := open'
  refine ⟨earlier, mail, later ++ [exchange], by simp, accepts, authorized, ?_⟩
  intro other mem
  rcases List.mem_append.mp mem with before | isLast
  · exact quiet other before
  · rw [List.mem_singleton.mp isLast]
    exact ⟨noMail, noReset⟩

theorem inTransaction_mail (authorized : Authorized server history)
    (accepts : exchange.AcceptsMail server.casing) : InTransaction server (history ++ [exchange]) :=
  ⟨history, exchange, [], rfl, accepts, authorized, fun _ mem => absurd mem List.not_mem_nil⟩

theorem recipients_concat (casing : Casing) (history : List Exchange) (exchange : Exchange) :
    recipients casing (history ++ [exchange]) =
      if exchange.AcceptsMail casing then []
      else recipients casing history ++ (exchange.acceptedRcpt casing).toList := by
  split
  next accepts =>
    rw [recipients, List.rtakeWhile_concat_neg _ _ _ (by simp [accepts])]
    rfl
  next refuses =>
    rw [recipients, List.rtakeWhile_concat_pos _ _ _ (by simp [refuses]), List.filterMap_append]
    cases accepted : exchange.acceptedRcpt casing with
    | none => simp [recipients, accepted]
    | some address => simp [recipients, accepted]

theorem waitsFor_concat (history : List Exchange) (exchange : Exchange) :
    waitsFor (history ++ [exchange]) = asksFor exchange.response := by
  rw [waitsFor, List.getLast?_concat]
  rfl

/-- A block is open in one way only. -/
theorem InBlock.unique (inBlock : InBlock history start block) {otherStart otherBlock : List Exchange}
    (other : InBlock history otherStart otherBlock) : start = otherStart ∧ block = otherBlock := by
  have unanswered : ∀ {start block : List Exchange} {opening : Exchange}, opening.OpensData →
      (∀ exchange ∈ block, exchange.response = none) →
        (start ++ opening :: block).rtakeWhile (fun exchange => exchange.response = none) = block := by
    intro start block opening opens silent
    refine Text.rtakeWhile_append_cons ?_ fun exchange mem => decide_eq_true (silent exchange mem)
    rw [opens]
    rfl
  obtain ⟨opening, split, opens, silent⟩ := inBlock
  obtain ⟨otherOpening, otherSplit, otherOpens, otherSilent⟩ := other
  have sameBlock : block = otherBlock := by
    rw [← unanswered opens silent, ← split, otherSplit, unanswered otherOpens otherSilent]
  rw [split, sameBlock] at otherSplit
  exact ⟨(List.append_inj' otherSplit rfl).1, sameBlock⟩

theorem InBlock.concat (inBlock : InBlock history start block) (silent : exchange.response = none) :
    InBlock (history ++ [exchange]) start (block ++ [exchange]) := by
  obtain ⟨opening, rfl, opens, silentBlock⟩ := inBlock
  refine ⟨opening, by simp, opens, ?_⟩
  intro other mem
  rcases List.mem_append.mp mem with before | isLast
  · exact silentBlock other before
  · rw [List.mem_singleton.mp isLast]
    exact silent

/-- The last line of an open block has no response, or opens it. -/
theorem InBlock.getLast? (inBlock : InBlock history start block) :
    ∃ last, history.getLast? = some last ∧ (last.response = none ∨ last.OpensData) := by
  obtain ⟨opening, rfl, opens, silent⟩ := inBlock
  rcases List.eq_nil_or_concat' block with rfl | ⟨before, last, rfl⟩
  · exact ⟨opening, List.getLast?_concat, .inr opens⟩
  · refine ⟨last, ?_, .inl (silent last (by simp))⟩
    rw [← List.cons_append, ← List.append_assoc]
    exact List.getLast?_concat

theorem blockText_concat (block : List Exchange) (exchange : Exchange) :
    blockText (block ++ [exchange]) = blockText block ++ unstuff exchange.line := by
  simp [blockText]

theorem blockSize_concat (block : List Exchange) (exchange : Exchange) :
    blockSize (block ++ [exchange]) = blockSize block + (Utf8.encode (unstuff exchange.line)).length := by
  rw [blockSize, blockText_concat, Utf8.encode, List.flatMap_append, List.length_append]
  rfl

end History

/-! ## The session follows its history -/

/-- What the variables of the session say about the history. -/
structure Follows (server : Server) (history : List Exchange) (session : Session) :
    Prop where
  waits : session.authStep = waitsFor history
  authorized : session.authenticated = true → Authorized server history
  mailFrom : ∀ sender, session.state = .mailFrom sender →
    InTransaction server history ∧ recipients server.casing history = []
  rcptTo : ∀ sender accepted, session.state = .rcptTo sender accepted → InTransaction server history ∧
      accepted = recipients server.casing history ∧ accepted ≠ []
  outside : session.inData = false → session.dataBuf = [] ∧ session.dataTooLarge = false ∧
      ∀ last, history.getLast? = some last → last.response ≠ none ∧ ¬ last.OpensData
  inside : session.inData = true →
    session.authStep = .none ∧ ∃ start block sender, InBlock history start block ∧
      session.state = .data sender (recipients server.casing start) ∧
      InTransaction server start ∧ recipients server.casing start ≠ [] ∧
      (session.dataTooLarge = true ↔ server.limits.maxMessageBytes < blockSize block) ∧
      (session.dataTooLarge = false → session.dataBuf = blockText block)

/-- A line that begins, continues and resets no transaction. -/
structure Exchange.Neutral (casing : Casing) (exchange : Exchange) : Prop where
  noMail : ¬ exchange.AcceptsMail casing
  noReset : ¬ exchange.Resets casing
  noRcpt : exchange.acceptedRcpt casing = none

/-- A sound exchange behind a history: a message is handed over exactly at the end of a block
that fits and that the parser reads, and it is the block's own. -/
structure Sound (server : Server) (history : List Exchange) (exchange : Exchange) : Prop where
  sentIff : exchange.sent.isSome ↔
    ∃ block, EndsBlock server history exchange block ∧ PartsInside server.casing (blockText block)
  opened : ∀ start block, InBlock history start block →
    InTransaction server start ∧ recipients server.casing start ≠ []
  message : ∀ start block, InBlock history start block → ∀ message, exchange.sent = some message →
    submission server.casing (recipients server.casing start) (blockText block) = some message

/-- What is kept along a run: the session follows its history, or its loop has ended. -/
def Kept (server : Server) (history : List Exchange) (session : Session) : Prop :=
  Follows server history session ∨ session.ended = true ∧ (session.inData = false → session.dataBuf = [])

/-- A block is handed over as a message exactly when the parser does not panic at it. -/
theorem isSome_submission_iff {casing : Casing} {envelope : List Text} {text : Text} :
    (submission casing envelope text).isSome = true ↔ PartsInside casing text := by
  rw [submission, Option.isSome_map]
  exact isSome_parseRfc2822?_iff

section Step

variable {server : Server} {history : List Exchange} {session next : Session}
  {exchange : Exchange} {line : Text} {response : String}

/-- A response that belongs to no MAIL, RCPT or RSET leaves the transaction as it is. -/
theorem neutral_of_response (other : response ≠ ok ∧ response ≠ startMail ∧ response ≠ greeting) :
    Exchange.Neutral server.casing ⟨line, some response, none⟩ where
  noMail accepts := other.1 (Option.some.inj accepts.1)
  noReset := by
    rintro (opens | greets | resets)
    · exact other.2.1 (Option.some.inj opens)
    · exact other.2.2 (Option.some.inj greets)
    · exact other.1 (Option.some.inj resets.1)
  noRcpt := if_neg fun accepts => other.1 (Option.some.inj accepts.1)

/-- An accepted line of another command leaves the transaction as it is. -/
theorem neutral_of_noop (isNoop : verbOf server.casing (Text.trimEnd line) = .noop) :
    Exchange.Neutral server.casing ⟨line, some ok, none⟩ where
  noMail accepts := by
    have isMail := accepts.2
    rw [isNoop] at isMail
    cases isMail
  noReset := by
    rintro (opens | greets | resets)
    · exact absurd (Option.some.inj opens) (by decide)
    · exact absurd (Option.some.inj greets) (by decide)
    · have isRset := resets.2
      rw [isNoop] at isRset
      cases isRset
  noRcpt := if_neg fun accepts => by
    have isRcpt := accepts.2
    rw [isNoop] at isRcpt
    cases isRcpt

section

variable (follows : Follows server history session) (outside : session.inData = false)

include follows outside

theorem Follows.not_inBlock (start block : List Exchange) : ¬ InBlock history start block := by
  intro inBlock
  obtain ⟨last, isLast, unanswered | opens⟩ := inBlock.getLast?
  · exact ((follows.outside outside).2.2 last isLast).1 unanswered
  · exact ((follows.outside outside).2.2 last isLast).2 opens

/-- A line outside a block hands nothing over. -/
theorem Follows.sound_outside (unsent : exchange.sent = none) : Sound server history exchange where
  sentIff := by
    rw [unsent]
    refine iff_of_false Bool.false_ne_true ?_
    rintro ⟨block, ⟨-, -, ⟨start, inBlock⟩, -⟩, -⟩
    exact follows.not_inBlock outside start block inBlock
  opened start block inBlock := absurd inBlock (follows.not_inBlock outside start block)
  message start block inBlock := absurd inBlock (follows.not_inBlock outside start block)

/-- A line outside a block that is answered, and opens none. -/
theorem Follows.answered (sameData : next.inData = session.inData ∧ next.dataBuf = session.dataBuf ∧
      next.dataTooLarge = session.dataTooLarge)
    (isAnswered : exchange.response ≠ none ∧ ¬ exchange.OpensData)
    (waits : next.authStep = asksFor exchange.response)
    (authorized : next.authenticated = true →
      session.authenticated = true ∨ ∀ password, password ≠ [] → server.passwordHash = some password →
        Succeeds server.casing password history exchange)
    (mailFrom : ∀ sender, next.state = .mailFrom sender → InTransaction server (history ++ [exchange]) ∧
        recipients server.casing (history ++ [exchange]) = [])
    (rcptTo : ∀ sender accepted, next.state = .rcptTo sender accepted →
      InTransaction server (history ++ [exchange]) ∧
        accepted = recipients server.casing (history ++ [exchange]) ∧ accepted ≠ []) :
    Follows server (history ++ [exchange]) next where
  waits := waits.trans (waitsFor_concat history exchange).symm
  authorized isAuthenticated := by
    rcases authorized isAuthenticated with before | succeeds
    · exact (follows.authorized before).concat exchange
    · exact fun password nonEmpty isPassword =>
        ⟨history, exchange, [], rfl, succeeds password nonEmpty isPassword⟩
  mailFrom := mailFrom
  rcptTo := rcptTo
  outside _ := by
    obtain ⟨empty, fits, -⟩ := follows.outside outside
    refine ⟨sameData.2.1.trans empty, sameData.2.2.trans fits, ?_⟩
    intro last isLast
    rw [List.getLast?_concat] at isLast
    exact Option.some.inj isLast ▸ isAnswered
  inside isInside := by
    rw [sameData.1, outside] at isInside
    cases isInside

/-- A line outside a block that leaves the transaction as it is. -/
theorem Follows.neutral (sameData : next.inData = session.inData ∧ next.dataBuf = session.dataBuf ∧
      next.dataTooLarge = session.dataTooLarge)
    (sameState : next.state = session.state)
    (neutral : exchange.Neutral server.casing) (isAnswered : exchange.response ≠ none)
    (waits : next.authStep = asksFor exchange.response) (authorized : next.authenticated = true →
      session.authenticated = true ∨ ∀ password, password ≠ [] → server.passwordHash = some password →
        Succeeds server.casing password history exchange) :
    Follows server (history ++ [exchange]) next := by
  have sameRecipients : recipients server.casing (history ++ [exchange]) =
      recipients server.casing history := by
    rw [recipients_concat, if_neg neutral.noMail, neutral.noRcpt, Option.toList_none, List.append_nil]
  refine follows.answered outside sameData ⟨isAnswered, fun opens => neutral.noReset (.inl opens)⟩ waits
    authorized ?_ ?_
  · intro sender isState
    obtain ⟨inTransaction, none'⟩ := follows.mailFrom sender (sameState ▸ isState)
    exact ⟨inTransaction.concat neutral.noMail neutral.noReset, sameRecipients.trans none'⟩
  · intro sender accepted isState
    obtain ⟨inTransaction, same, some'⟩ := follows.rcptTo sender accepted (sameState ▸ isState)
    exact ⟨inTransaction.concat neutral.noMail neutral.noReset, same.trans sameRecipients.symm, some'⟩

end

/-! ### AUTH -/

/-- A password is accepted if there is none to compare with, or if it is the same. -/
theorem verifySmtpPassword_cases (given : Text) (expected : Option Text) :
    (∀ password, expected = some password → given = password) ∧ verifySmtpPassword given expected = success ∨
      verifySmtpPassword given expected = "535 5.7.8 Authentication failed\r\n" := by
  cases expected with
  | none =>
    refine .inl ⟨?_, rfl⟩
    intro password impossible
    cases impossible
  | some expected =>
    rw [verifySmtpPassword]
    by_cases same : given = expected
    · exact .inl ⟨fun password isPassword => same.trans (Option.some.inj isPassword), if_pos same⟩
    · exact .inr (if_neg same)

section

variable (follows : Follows server history session) (outside : session.inData = false)

include follows outside

/-- A line that presents a password, and the verdict on it. -/
theorem Follows.verified
    {read : Option Text} (presents : presented server.casing history line = read) :
    Follows server (history ++ [⟨line, some (verifySmtpPassword (read.getD []) server.passwordHash), none⟩])
      ({ session with authStep := .none }.noting
        (verifySmtpPassword (read.getD []) server.passwordHash)) := by
  rcases verifySmtpPassword_cases (read.getD []) server.passwordHash with ⟨same, verdict⟩ | verdict
  · rw [verdict]
    refine follows.neutral outside ⟨rfl, rfl, rfl⟩ rfl
      (neutral_of_response (by decide)) (Option.some_ne_none _) (by exact rfl) ?_
    refine fun _ => .inr fun password nonEmpty isPassword => ⟨presents.trans ?_, rfl⟩
    have given := same password isPassword
    cases read with
    | none => exact absurd given.symm nonEmpty
    | some text => exact congrArg some given
  · rw [verdict]
    refine follows.neutral outside ⟨rfl, rfl, rfl⟩ rfl
      (neutral_of_response (by decide)) (Option.some_ne_none _) (by exact rfl) ?_
    intro isAuthenticated
    have noSuccess : "235".toList.isPrefixOf "535 5.7.8 Authentication failed\r\n".toList = false := by
      decide
    rw [Session.noting, noSuccess, Bool.or_false] at isAuthenticated
    exact .inl isAuthenticated

/-- A line outside a block whose response leaves everything but the step of AUTH. -/
theorem Follows.replied {step : AuthStep}
    (neutral : Exchange.Neutral server.casing ⟨line, some response, none⟩)
    (waits : step = asksFor (some response)) :
    Follows server (history ++ [⟨line, some response, none⟩])
      { session with authStep := step } :=
  follows.neutral outside ⟨rfl, rfl, rfl⟩ rfl neutral (Option.some_ne_none _) waits .inl

/-- A line of an AUTH exchange. -/
theorem follows_handleAuthStep (pending : session.authStep ≠ .none) : Follows server
      (history ++ [⟨line, some (session.handleAuthStep server (Text.trimEnd line)).1, none⟩])
      (session.handleAuthStep server (Text.trimEnd line)).2 := by
  have waits := follows.waits
  unfold Session.handleAuthStep
  cases step : session.authStep with
  | none => exact absurd step pending
  | waitPlainData =>
    refine follows.verified outside ?_
    rw [presented, ← waits, step]
  | waitLoginUser =>
    exact @Follows.replied server history session line "334 UGFzc3dvcmQ6\r\n" follows outside
      .waitLoginPass (neutral_of_response (by decide)) rfl
  | waitLoginPass =>
    refine follows.verified outside ?_
    rw [presented, ← waits, step]

/-- The command AUTH. -/
theorem follows_handleAuth (idle : session.authStep = .none)
    (isAuth : verbOf server.casing (Text.trimEnd line) = .auth) : Follows server
      (history ++ [⟨line, some (session.handleAuth server (Text.trimEnd line)).1, none⟩])
      (session.handleAuth server (Text.trimEnd line)).2 := by
  have sameSession : { session with authStep := .none } = session := by
    rw [← idle]
  unfold Session.handleAuth
  dsimp only
  split
  next isPlain =>
    split
    next data isData =>
      have presents : presented server.casing history line = plainPassword data := by
        rw [presented, ← follows.waits, idle]
        dsimp only
        rw [if_pos ⟨isAuth, isPlain⟩, isData, Option.bind_some]
      have verified := follows.verified outside presents
      rwa [sameSession] at verified
    next =>
      exact @Follows.replied server history session line "334 \r\n" follows outside
        .waitPlainData (neutral_of_response (by decide)) rfl
  next =>
    split
    · exact @Follows.replied server history session line "334 VXNlcm5hbWU6\r\n" follows outside
        .waitLoginUser (neutral_of_response (by decide)) rfl
    · have replied := @Follows.replied server history session line
        "504 Unrecognized auth type\r\n" follows outside .none (neutral_of_response (by decide)) rfl
      rwa [sameSession] at replied

end

/-! ### Commands -/

section

variable (follows : Follows server history session) (outside : session.inData = false)

include follows outside

/-- A MAIL that is accepted begins a transaction. -/
theorem Follows.mail (isAuthenticated : session.authenticated = true)
    (idle : session.authStep = .none) (isMail : verbOf server.casing (Text.trimEnd line) = .mail)
    (sender : Text) :
    Follows server (history ++ [⟨line, some ok, none⟩])
      { session with state := .mailFrom sender } := by
  have accepts : Exchange.AcceptsMail server.casing ⟨line, some ok, none⟩ := ⟨rfl, isMail⟩
  refine follows.answered outside ⟨rfl, rfl, rfl⟩ ⟨Option.some_ne_none _, ?_⟩ idle .inl ?_ ?_
  · exact fun opens => absurd (Option.some.inj opens) (by decide)
  · intro other same
    refine ⟨inTransaction_mail (follows.authorized isAuthenticated) accepts, ?_⟩
    rw [recipients_concat, if_pos accepts]
  · intro other accepted same
    cases same

/-- A RCPT that is accepted adds its address. -/
theorem Follows.rcpt (idle : session.authStep = .none)
    (isRcpt : verbOf server.casing (Text.trimEnd line) = .rcpt)
    (inTransaction : InTransaction server history) (sender : Text) :
    Follows server (history ++ [⟨line, some ok, none⟩])
      { session with
        state := .rcptTo sender
          (recipients server.casing history ++ [extractAddress (Text.trimEnd line)]) } := by
  have noMail : ¬ Exchange.AcceptsMail server.casing ⟨line, some ok, none⟩ := by
    intro accepts
    have isMail := accepts.2
    rw [isRcpt] at isMail
    cases isMail
  have noReset : ¬ Exchange.Resets server.casing ⟨line, some ok, none⟩ := by
    rintro (opens | greets | resets)
    · exact absurd (Option.some.inj opens) (by decide)
    · exact absurd (Option.some.inj greets) (by decide)
    · have isRset := resets.2
      rw [isRcpt] at isRset
      cases isRset
  have accepted : Exchange.acceptedRcpt server.casing ⟨line, some ok, none⟩ =
      some (extractAddress (Text.trimEnd line)) := if_pos ⟨rfl, isRcpt⟩
  refine follows.answered outside ⟨rfl, rfl, rfl⟩ ⟨Option.some_ne_none _, fun opens => noReset (.inl opens)⟩
    idle .inl ?_ ?_
  · intro other same
    cases same
  · intro other all same
    cases same
    refine ⟨inTransaction.concat noMail noReset, ?_, List.append_ne_nil_of_right_ne_nil _ (by simp)⟩
    rw [recipients_concat, if_neg noMail, accepted]
    rfl

/-- A DATA that is accepted opens a block. -/
theorem Follows.data (idle : session.authStep = .none) (inTransaction : InTransaction server history)
    (someAccepted : recipients server.casing history ≠ []) (sender : Text) :
    Follows server (history ++ [⟨line, some startMail, none⟩])
      { session with
        state := .data sender (recipients server.casing history)
        inData := true } where
  waits := by
    rw [waitsFor_concat]
    exact idle
  authorized isAuthenticated := (follows.authorized isAuthenticated).concat _
  mailFrom _ same := by cases same
  rcptTo _ _ same := by cases same
  outside impossible := by cases impossible
  inside _ := by
    obtain ⟨empty, fits, -⟩ := follows.outside outside
    have opened : InBlock (history ++ [⟨line, some startMail, none⟩]) history [] :=
      ⟨_, rfl, rfl, fun _ mem => absurd mem List.not_mem_nil⟩
    refine ⟨idle, history, [], sender, opened, rfl, inTransaction, someAccepted, ?_, fun _ => empty⟩
    dsimp only
    rw [fits]
    exact iff_of_false Bool.false_ne_true (Nat.not_lt_zero _)

/-- A command that gives up the transaction. -/
theorem Follows.resets {state : SmtpState} {ended : Bool}
    (noTransaction : state = .greeted ∨ state = .quit) (notStart : response ≠ startMail)
    (waits : session.authStep = asksFor (some response)) :
    Follows server (history ++ [⟨line, some response, none⟩])
      { session with
        state := state
        ended := ended } := by
  refine follows.answered outside ⟨rfl, rfl, rfl⟩ ⟨Option.some_ne_none _, ?_⟩ waits .inl ?_ ?_
  · exact fun opens => notStart (Option.some.inj opens)
  · intro sender same
    rcases noTransaction with isState | isState <;> cases isState.symm.trans same
  · intro sender accepted same
    rcases noTransaction with isState | isState <;> cases isState.symm.trans same

theorem follows_handleCommand (idle : session.authStep = .none) : Follows server
      (history ++ [⟨line, some (session.handleCommand server (Text.trimEnd line)).1, none⟩])
      (session.handleCommand server (Text.trimEnd line)).2 := by
  have sameSession : { session with authStep := .none } = session := by
    rw [← idle]
  have refuse : ∀ refusal : String, refusal ≠ ok ∧ refusal ≠ startMail ∧ refusal ≠ greeting →
      asksFor (some refusal) = .none → Follows server (history ++ [⟨line, some refusal, none⟩]) session := by
    intro refusal other asks
    have replied := @Follows.replied server history session line refusal follows outside .none
      (neutral_of_response other) asks.symm
    rwa [sameSession] at replied
  unfold Session.handleCommand
  dsimp only
  split
  · exact refuse "530 5.7.0 Authentication required\r\n" (by decide) rfl
  next allowed =>
    have isAuthenticated : (verbOf server.casing (Text.trimEnd line) = .mail ∨
        verbOf server.casing (Text.trimEnd line) = .rcpt ∨
        verbOf server.casing (Text.trimEnd line) = .data) → session.authenticated = true := by
      intro needed
      by_contra unauthenticated
      exact allowed ⟨unauthenticated, needed⟩
    cases verb : verbOf server.casing (Text.trimEnd line) with
    | ehlo =>
      dsimp only
      exact follows.resets outside (.inl rfl) (by decide) idle
    | auth => exact follows_handleAuth follows outside idle verb
    | mail =>
      dsimp only
      split
      · exact refuse "552 5.3.4 message size exceeds limit\r\n" (by decide) rfl
      · exact follows.mail outside (isAuthenticated (.inl verb)) idle verb _
    | rcpt =>
      dsimp only
      split
      next sender isState =>
        obtain ⟨inTransaction, noneYet⟩ := follows.mailFrom sender isState
        have grown := follows.rcpt outside idle verb inTransaction sender
        rwa [noneYet, List.nil_append] at grown
      next sender accepted isState =>
        obtain ⟨inTransaction, rfl, -⟩ := follows.rcptTo sender accepted isState
        exact follows.rcpt outside idle verb inTransaction sender
      · exact refuse "503 Bad sequence\r\n" (by decide) rfl
    | data =>
      dsimp only
      split
      next sender accepted isState =>
        obtain ⟨inTransaction, rfl, someAccepted⟩ := follows.rcptTo sender accepted isState
        exact follows.data outside idle inTransaction someAccepted sender
      · exact refuse "503 Bad sequence\r\n" (by decide) rfl
    | rset =>
      dsimp only
      exact follows.resets outside (.inl rfl) (by decide) idle
    | quit =>
      dsimp only
      exact follows.resets outside (.inr rfl) (by decide) idle
    | noop =>
      exact follows.neutral outside ⟨rfl, rfl, rfl⟩ rfl (neutral_of_noop verb)
        (Option.some_ne_none _) idle .inl
    | unknown => exact refuse "502 Command not implemented\r\n" (by decide) rfl

end

/-! ### DATA -/

/-- A line of a block. -/
theorem kept_handleData (follows : Follows server history session) (isInside : session.inData = true) :
    Kept server (history ++ [(session.handleData server line).1]) (session.handleData server line).2 ∧
      Sound server history (session.handleData server line).1 := by
  obtain ⟨idle, start, block, sender, inBlock, isState, inTransaction, someAccepted, tooLargeIff,
    buffered⟩ := follows.inside isInside
  have opened : ∀ otherStart otherBlock, InBlock history otherStart otherBlock →
      InTransaction server otherStart ∧ recipients server.casing otherStart ≠ [] := by
    intro otherStart otherBlock other
    obtain ⟨rfl, rfl⟩ := inBlock.unique other
    exact ⟨inTransaction, someAccepted⟩
  have unsent : ∀ {exchange : Exchange}, exchange.sent = none →
      (¬ exchange.IsDot ∨ server.limits.maxMessageBytes < blockSize block ∨
        ¬ PartsInside server.casing (blockText block)) →
        Sound server history exchange := by
    intro exchange none' reason
    refine ⟨?_, opened, fun _ _ _ message isSent => by rw [none'] at isSent; cases isSent⟩
    rw [none']
    refine iff_of_false Bool.false_ne_true ?_
    rintro ⟨otherBlock, ⟨-, isDot, ⟨otherStart, other⟩, fits⟩, readable⟩
    obtain ⟨rfl, rfl⟩ := inBlock.unique other
    rcases reason with notDot | tooLarge | panics
    · exact notDot isDot
    · omega
    · exact panics readable
  -- A further line of the block, which goes on.
  have goesOn : ∀ (tooLarge : Bool) (dataBuf : Text),
      (tooLarge = true ↔ server.limits.maxMessageBytes < blockSize (block ++ [⟨line, none, none⟩])) →
      (tooLarge = false → dataBuf = blockText (block ++ [⟨line, none, none⟩])) →
        Follows server (history ++ [⟨line, none, none⟩])
          { session with
            dataTooLarge := tooLarge
            dataBuf := dataBuf } := by
    intro tooLarge dataBuf tooLargeIff buffered
    refine ⟨?_, fun isAuthenticated => (follows.authorized isAuthenticated).concat _, ?_, ?_, ?_, ?_⟩
    · rw [waitsFor_concat]
      exact idle
    · intro other same
      cases isState.symm.trans same
    · intro other accepted same
      cases isState.symm.trans same
    · intro outside
      cases isInside.symm.trans outside
    · intro _
      exact ⟨idle, start, _, sender, inBlock.concat rfl, isState, inTransaction, someAccepted, tooLargeIff,
        buffered⟩
  -- The end of the block.
  have ends : ∀ {exchange : Exchange} {response : String}, exchange.response = some response →
      response ≠ startMail → asksFor (some response) = .none → Follows server (history ++ [exchange])
          { session with
            state := .greeted
            dataBuf := []
            inData := false
            dataTooLarge := false } := by
    intro exchange response answered notStart asks
    refine ⟨?_, fun isAuthenticated => (follows.authorized isAuthenticated).concat _, ?_, ?_, ?_, ?_⟩
    · rw [waitsFor_concat, answered, asks]
      exact idle
    · intro other same
      cases same
    · intro other accepted same
      cases same
    · refine fun _ => ⟨rfl, rfl, fun last isLast => ?_⟩
      rw [List.getLast?_concat] at isLast
      rw [← Option.some.inj isLast, answered]
      exact ⟨Option.some_ne_none _, fun opens =>
        notStart (Option.some.inj (answered.symm.trans opens))⟩
    · intro impossible
      cases impossible
  rw [Session.handleData]
  split
  next isDot =>
    rw [Session.endData]
    dsimp only
    split
    next tooLarge =>
      exact ⟨.inl (ends rfl (by decide) rfl), unsent rfl (.inr (.inl (tooLargeIff.mp tooLarge)))⟩
    next notTooLarge =>
      have fits : blockSize block ≤ server.limits.maxMessageBytes :=
        Nat.not_lt.mp fun tooLarge => notTooLarge (tooLargeIff.mpr tooLarge)
      rw [isState, buffered (eq_false_of_ne_true notTooLarge)]
      dsimp only
      have reads := @isSome_submission_iff server.casing (recipients server.casing start) (blockText block)
      cases handedOver : submission server.casing (recipients server.casing start) (blockText block) with
      | some message =>
        rw [handedOver] at reads
        refine ⟨.inl ?_, ?_, opened, ?_⟩
        · dsimp only
          split
          · exact ends rfl (by decide) rfl
          · exact ends rfl (by decide) rfl
        · refine iff_of_true rfl ⟨block, ⟨?_, isDot, ⟨start, inBlock⟩, fits⟩, reads.mp rfl⟩
          dsimp only
          split <;> exact fun same => absurd (Option.some.inj same) (by decide)
        · intro otherStart otherBlock other message isSent
          obtain ⟨rfl, rfl⟩ := inBlock.unique other
          exact handedOver.trans isSent
      | none =>
        rw [handedOver] at reads
        refine ⟨.inr ⟨rfl, fun _ => rfl⟩, unsent rfl (.inr (.inr fun readable => ?_))⟩
        exact Bool.false_ne_true (reads.mpr readable)
  next notDot =>
    split
    next tooLarge =>
      have already := tooLargeIff.mp tooLarge
      have later : server.limits.maxMessageBytes < blockSize (block ++ [⟨line, none, none⟩]) := by
        rw [blockSize_concat]
        omega
      have on := goesOn true session.dataBuf (iff_of_true rfl later) (fun impossible => by cases impossible)
      rw [← tooLarge] at on
      exact ⟨.inl on, unsent rfl (.inl notDot)⟩
    next notTooLarge =>
      have below := eq_false_of_ne_true notTooLarge
      have size : blockSize (block ++ [⟨line, none, none⟩]) =
          (Utf8.encode session.dataBuf).length + (Utf8.encode (unstuff line)).length := by
        rw [blockSize_concat, blockSize, buffered below]
      split
      next exceeds =>
        exact ⟨.inl (goesOn true [] (iff_of_true rfl (size ▸ exceeds)) fun impossible => by cases impossible),
          unsent rfl (.inl notDot)⟩
      next fits =>
        have on := goesOn false (session.dataBuf ++ unstuff line)
          (iff_of_false Bool.false_ne_true (size ▸ fits))
          (fun _ => by rw [blockText_concat, buffered below])
        rw [← below] at on
        exact ⟨.inl on, unsent rfl (.inl notDot)⟩

/-! ### Lines -/

theorem follows_next (follows : Follows server history session) : Follows server history session.next :=
  ⟨follows.waits, follows.authorized, follows.mailFrom, follows.rcptTo, follows.outside, follows.inside⟩

/-- Behind an open block there is a transaction. -/
theorem Follows.opened (follows : Follows server history session) {start block : List Exchange}
    (inBlock : InBlock history start block) : InTransaction server start ∧ recipients server.casing start ≠ [] := by
  by_cases isInside : session.inData = true
  · obtain ⟨-, ownStart, ownBlock, sender, ownInBlock, -, inTransaction, someAccepted, -⟩ :=
      follows.inside isInside
    obtain ⟨rfl, rfl⟩ := ownInBlock.unique inBlock
    exact ⟨inTransaction, someAccepted⟩
  · exact absurd inBlock (follows.not_inBlock (eq_false_of_ne_true isInside) start block)

theorem Kept.goesOn (kept : Kept server history session) : Kept server history session.next :=
  kept.imp follows_next id

theorem Kept.dataBuf (kept : Kept server history session) (outside : session.inData = false) :
    session.dataBuf = [] := by
  rcases kept with follows | ⟨-, empty⟩
  · exact (follows.outside outside).1
  · exact empty outside

/-- A line makes one exchange, which is sound. -/
theorem kept_handleLine (follows : Follows server history session) (live : session.ended = false) (raw : List UInt8) :
    ∃ exchange, (session.handleLine server raw).1 = [exchange] ∧
      Kept server (history ++ [exchange]) (session.handleLine server raw).2 ∧ Sound server history exchange := by
  rw [Session.handleLine]
  dsimp only
  rw [if_neg (by rw [live]; exact Bool.false_ne_true)]
  split
  next tooLong =>
    refine ⟨_, rfl, .inr ⟨rfl, fun outside => (follows.outside outside).1⟩, ?_⟩
    refine ⟨iff_of_false Bool.false_ne_true ?_, fun _ _ => follows.opened, ?_⟩
    · rintro ⟨block, ⟨within, -⟩, -⟩
      exact within rfl
    · intro start block _ message isSent
      cases isSent
  next =>
    split
    next pending =>
      have outside : session.inData = false := by
        by_contra isInside
        exact pending (follows.inside (eq_true_of_ne_false isInside)).1
      exact ⟨_, rfl, .inl (follows_next (follows_handleAuthStep follows outside pending)),
        follows.sound_outside outside rfl⟩
    next idle =>
      split
      next isInside =>
        obtain ⟨kept, sound⟩ := @kept_handleData server history session
          (Utf8.decodeLossy raw) follows isInside
        exact ⟨_, rfl, kept.goesOn, sound⟩
      next notInside =>
        have outside := eq_false_of_ne_true notInside
        exact ⟨_, rfl, .inl (follows_next (follows_handleCommand follows outside (not_not.mp idle))),
          follows.sound_outside outside rfl⟩

theorem follows_opened (server : Server) : Follows server [] (.opened server.passwordHash) where
  waits := rfl
  authorized isAuthenticated := by
    intro password _ passwordHash
    rw [Session.opened, passwordHash] at isAuthenticated
    cases isAuthenticated
  mailFrom _ same := by cases same
  rcptTo _ _ same := by cases same
  outside _ := ⟨rfl, rfl, fun _ isLast => by cases isLast⟩
  inside impossible := by cases impossible

end Step

/-! ## Runs -/

/-- Every exchange of the list is sound behind those before it. -/
def AllSound (server : Server) (exchanges : List Exchange) : Prop :=
  ∀ before exchange after, exchanges = before ++ exchange :: after → Sound server before exchange

section Run

variable {server : Server}

/-- A run keeps what a step keeps, and all its exchanges are sound. -/
theorem kept_handleConnection (server : Server) (lines : List (List UInt8)) :
    Kept server (handleConnection server lines).1 (handleConnection server lines).2 ∧
      AllSound server (handleConnection server lines).1 := by
  induction lines using List.reverseRecOn with
  | nil =>
    refine ⟨.inl (follows_opened server), ?_⟩
    intro before exchange after same
    simp [handleConnection, run_nil] at same
  | append_singleton lines raw ih =>
    obtain ⟨kept, sound⟩ := ih
    have split := @run_concat _ _ _ (Session.handleLine server) (.opened server.passwordHash) lines raw
    rw [handleConnection, split]
    rw [handleConnection] at kept sound
    generalize run (Session.handleLine server) (.opened server.passwordHash) lines = reached at kept sound
    dsimp only
    by_cases ended : reached.2.ended = true
    · have silent : reached.2.handleLine server raw = ([], reached.2) := by
        rw [Session.handleLine]
        exact if_pos ended
      rw [silent, List.append_nil]
      exact ⟨kept, sound⟩
    · have follows := kept.resolve_right fun stopped => ended stopped.1
      obtain ⟨exchange, isExchange, stillKept, isSound⟩ :=
        kept_handleLine follows (eq_false_of_ne_true ended) raw
      rw [isExchange]
      refine ⟨stillKept, ?_⟩
      intro before other after same
      rcases concat_eq_append_cons same with ⟨rfl, rfl, rfl⟩ | ⟨rest, rfl, isBefore⟩
      · exact isSound
      · exact sound before other rest isBefore

end Run

/-! ## Recipients -/

/-- The message of a block for recipients: each of them is among its addresses, but for case,
and the addresses that the headers do not name are recipients. -/
structure Delivers (casing : Casing) (envelope : List Text) (text : Text) (message : ParsedMessage) :
    Prop where
  delivered : ∀ rcpt ∈ envelope, ∃ address ∈ headerAddresses message.addresses,
    casing.toLowercase address = casing.toLowercase rcpt
  toHeader : message.addresses.recipients = (parseAddressHeaders casing text).recipients
  ccHeader : message.addresses.cc = (parseAddressHeaders casing text).cc
  added : ∃ added, message.addresses.bcc = (parseAddressHeaders casing text).bcc ++ added ∧
    ∀ entry ∈ added, entry.2 ∈ envelope

section Recipients

variable {casing : Casing} {envelope : List Text} {text : Text} {message : ParsedMessage}

section

variable (handedOver : submission casing envelope text = some message)

include handedOver

/-- The addresses of a message are those of its headers, and in bcc the recipients that no
header names. -/
theorem addresses_of_submission : message.addresses = { parseAddressHeaders casing text with
      bcc := (parseAddressHeaders casing text).bcc ++
        addedBcc casing envelope (parseAddressHeaders casing text) } := by
  obtain ⟨parsed, read, rfl⟩ := Option.map_eq_some_iff.mp handedOver
  rw [(headers_of_parseRfc2822? read).1]

theorem headerAddresses_of_submission :
    headerAddresses message.addresses = headerAddresses (parseAddressHeaders casing text) ++ envelope.filter fun rcpt =>
        casing.toLowercase rcpt ∉ (headerAddresses (parseAddressHeaders casing text)).map casing.toLowercase := by
  rw [addresses_of_submission handedOver]
  simp [headerAddresses, addedBcc]

/-- The addresses of a message are those of its headers and the recipients, but for case. -/
theorem mem_headerAddresses_submission_iff
    (address : Text) : address ∈ (headerAddresses message.addresses).map casing.toLowercase ↔
      address ∈ (headerAddresses (parseAddressHeaders casing text)).map casing.toLowercase ∨
        address ∈ envelope.map casing.toLowercase := by
  rw [headerAddresses_of_submission handedOver, List.map_append, List.mem_append]
  constructor
  · rintro (inHeader | added)
    · exact .inl inHeader
    · obtain ⟨rcpt, mem, rfl⟩ := List.mem_map.mp added
      exact .inr (List.mem_map_of_mem (List.mem_filter.mp mem).1)
  · rintro (inHeader | inEnvelope)
    · exact .inl inHeader
    · obtain ⟨rcpt, mem, rfl⟩ := List.mem_map.mp inEnvelope
      by_cases named : casing.toLowercase rcpt ∈
          (headerAddresses (parseAddressHeaders casing text)).map casing.toLowercase
      · exact .inl named
      · exact .inr (List.mem_map_of_mem (List.mem_filter.mpr ⟨mem, decide_eq_true named⟩))

theorem delivers_of_submission : Delivers casing envelope text message where
  delivered rcpt mem := by
    have inMessage := (mem_headerAddresses_submission_iff handedOver (casing.toLowercase rcpt)).mpr
      (.inr (List.mem_map_of_mem mem))
    obtain ⟨address, isAddress, same⟩ := List.mem_map.mp inMessage
    exact ⟨address, isAddress, same⟩
  toHeader := by rw [addresses_of_submission handedOver]
  ccHeader := by rw [addresses_of_submission handedOver]
  added := by
    refine ⟨addedBcc casing envelope (parseAddressHeaders casing text), ?_, ?_⟩
    · rw [addresses_of_submission handedOver]
    · intro entry mem
      obtain ⟨rcpt, isAdded, rfl⟩ := List.mem_map.mp mem
      exact (List.mem_filter.mp isAdded).1

end

end Recipients

/-! ## Sessions -/

/-- A message is handed over only at the lone dot behind a DATA block that fits; the block was
opened in a transaction of an authorized client, with a MAIL and a RCPT that were accepted;
and the message is delivered to the recipients of that transaction, with no other address
added. Outside a block nothing is buffered. -/
structure SendsBlocksOnly (server : Server) (lines : List (List UInt8)) : Prop where
  atDot : ∀ before exchange after, (handleConnection server lines).1 = before ++ exchange :: after →
    exchange.sent.isSome → exchange.IsDot ∧
      ∃ start block, InBlock before start block ∧ blockSize block ≤ server.limits.maxMessageBytes
  inTransaction : ∀ before exchange after, (handleConnection server lines).1 = before ++ exchange :: after →
      ∀ start block, InBlock before start block →
        InTransaction server start ∧ recipients server.casing start ≠ [] ∧
          ∀ message, exchange.sent = some message →
            Delivers server.casing (recipients server.casing start) (blockText block) message
  outside : (handleConnection server lines).2.inData = false → (handleConnection server lines).2.dataBuf = []

/-- A message is handed over at the end of each block that fits. -/
def SendsEveryBlock (server : Server) (lines : List (List UInt8)) : Prop :=
  ∀ before exchange after, (handleConnection server lines).1 = before ++ exchange :: after →
    ∀ block, EndsBlock server before exchange block → exchange.sent.isSome

/-- The parser does not panic at a block that fits. -/
def BlocksInside (server : Server) (lines : List (List UInt8)) : Prop :=
  ∀ before exchange after, (handleConnection server lines).1 = before ++ exchange :: after →
    ∀ block, EndsBlock server before exchange block → PartsInside server.casing (blockText block)

theorem sendsBlocksOnly (server : Server) (lines : List (List UInt8)) : SendsBlocksOnly server lines where
  atDot before exchange after split isSent := by
    have isSound := (kept_handleConnection server lines).2 before exchange after split
    obtain ⟨block, ⟨-, isDot, ⟨start, inBlock⟩, fits⟩, -⟩ := isSound.sentIff.mp isSent
    exact ⟨isDot, start, block, inBlock, fits⟩
  inTransaction before exchange after split start block inBlock := by
    have isSound := (kept_handleConnection server lines).2 before exchange after split
    obtain ⟨inTransaction, someAccepted⟩ := isSound.opened start block inBlock
    exact ⟨inTransaction, someAccepted, fun message isSent =>
      delivers_of_submission (isSound.message start block inBlock message isSent)⟩
  outside := (kept_handleConnection server lines).1.dataBuf

/-- In every session a message is handed over only for a DATA block that fits, to the
recipients of its transaction; and one is handed over for each such block, exactly if the
parser panics at none of them. -/
theorem smtp_session_sound (server : Server) (lines : List (List UInt8)) :
    SendsBlocksOnly server lines ∧ (SendsEveryBlock server lines ↔ BlocksInside server lines) := by
  refine ⟨sendsBlocksOnly server lines, ?_⟩
  have sound := (kept_handleConnection server lines).2
  constructor
  · intro sends before exchange after split block ends
    obtain ⟨other, ⟨-, -, ⟨otherStart, inOther⟩, -⟩, inside⟩ :=
      (sound before exchange after split).sentIff.mp (sends before exchange after split block ends)
    obtain ⟨-, -, ⟨start, inBlock⟩, -⟩ := ends
    obtain ⟨-, rfl⟩ := inBlock.unique inOther
    exact inside
  · intro inside before exchange after split block ends
    exact (sound before exchange after split).sentIff.mpr
      ⟨block, ends, inside before exchange after split block ends⟩

/-- A server with the default limits, whose backend sends every message. -/
def sampleServer : Server :=
  ⟨.ascii, some "secret".toList, ⟨26214400, 1048576⟩, fun _ _ => true⟩

/-- A client that logs in and sends a message with a header to one recipient. -/
def linesWith (header : String) : List (List UInt8) :=
  ["AUTH PLAIN AHVzZXIAc2VjcmV0\r\n", "MAIL FROM:<a@b.com>\r\n", "RCPT TO:<c@d.com>\r\n", "DATA\r\n",
    header ++ "\r\n", "\r\n", ".\r\n"].map fun line => Utf8.encode line.toList

/-- The header names another recipient. -/
def sampleLines : List (List UInt8) := linesWith "To: <e@f.org>"

/-- The exchanges before the message is opened, and its lines. -/
def sampleStart : List Exchange :=
  [⟨"AUTH PLAIN AHVzZXIAc2VjcmV0\r\n".toList, some success, none⟩,
    ⟨"MAIL FROM:<a@b.com>\r\n".toList, some ok, none⟩,
    ⟨"RCPT TO:<c@d.com>\r\n".toList, some ok, none⟩]

def blockWith (header : String) : List Exchange :=
  [⟨(header ++ "\r\n").toList, none, none⟩, ⟨"\r\n".toList, none, none⟩]

def sampleBlock : List Exchange := blockWith "To: <e@f.org>"

def sampleMessage : ParsedMessage where
  sender := ([], [])
  addresses := { recipients := [([], "e@f.org".toList)], cc := [], bcc := [([], "c@d.com".toList)], replyTo := [] }
  subject := []
  messageId := none
  inReplyTo := none
  body := ⟨[], [], some []⟩

theorem sample_split : (handleConnection sampleServer sampleLines).1 =
      (sampleStart ++ ⟨"DATA\r\n".toList, some startMail, none⟩ :: sampleBlock) ++
        ⟨".\r\n".toList, some "250 OK message sent\r\n", some sampleMessage⟩ :: [] := by
  decide +kernel

theorem sample_inBlock :
    InBlock (sampleStart ++ ⟨"DATA\r\n".toList, some startMail, none⟩ :: sampleBlock) sampleStart
      sampleBlock :=
  ⟨_, rfl, rfl, by decide⟩

/-- The message of the sample is delivered to its recipient. -/
theorem smtp_session_sound_sample :
    Delivers .ascii (recipients .ascii sampleStart) (blockText sampleBlock) sampleMessage :=
  ((smtp_session_sound sampleServer sampleLines).1.inTransaction _ _ _ sample_split _ _
    sample_inBlock).2.2 _ rfl

/-- A server whose lower case of `İ` is longer than it, as in the standard library. -/
def dottedServer : Server := { sampleServer with casing := dottedCasing }

/-- A boundary that is named last, behind a letter that grows in lower case. -/
def dottedType : String := "Content-Type: multipart/İ; boundary="

/-- A block that fits is not handed over: the session ends at its lone dot without a response. -/
theorem dotted_type_is_not_sent : ¬ SendsEveryBlock dottedServer (linesWith dottedType) := by
  intro sends
  have split : (handleConnection dottedServer (linesWith dottedType)).1 =
      (sampleStart ++ ⟨"DATA\r\n".toList, some startMail, none⟩ :: blockWith dottedType) ++
        ⟨".\r\n".toList, none, none⟩ :: [] := by
    decide +kernel
  have ends : EndsBlock dottedServer
      (sampleStart ++ ⟨"DATA\r\n".toList, some startMail, none⟩ :: blockWith dottedType)
      ⟨".\r\n".toList, none, none⟩ (blockWith dottedType) :=
    ⟨Option.some_ne_none _ ∘ Eq.symm, by unfold Exchange.IsDot; decide, ⟨sampleStart, _, rfl, rfl, by decide⟩,
      by decide +kernel⟩
  exact absurd (sends _ _ _ split _ ends) Bool.false_ne_true

/-- In a session the addresses handed over are the recipients of the transaction. -/
def EnvelopeDecides (server : Server) (lines : List (List UInt8)) : Prop :=
  ∀ before exchange after, (handleConnection server lines).1 = before ++ exchange :: after →
    ∀ start block, InBlock before start block → ∀ message, exchange.sent = some message →
      ∀ address, address ∈ (headerAddresses message.addresses).map server.casing.toLowercase ↔
        address ∈ (recipients server.casing start).map server.casing.toLowercase

/-- The addresses handed over are the recipients of the transaction and the addresses in
the headers of the message. -/
theorem recipients_and_headers (server : Server) (lines : List (List UInt8)) :
    ∀ before exchange after, (handleConnection server lines).1 = before ++ exchange :: after →
      ∀ start block, InBlock before start block → ∀ message, exchange.sent = some message →
        ∀ address, address ∈ (headerAddresses message.addresses).map server.casing.toLowercase ↔
          address ∈ (headerAddresses (parseAddressHeaders server.casing (blockText block))).map
              server.casing.toLowercase ∨
            address ∈ (recipients server.casing start).map server.casing.toLowercase := by
  intro before exchange after split start block inBlock message isSent address
  have isSound := (kept_handleConnection server lines).2 before exchange after split
  exact mem_headerAddresses_submission_iff (isSound.message start block inBlock message isSent) address

/-- A message is handed over for an address that only its header names. -/
theorem header_address_is_delivered : ¬ EnvelopeDecides sampleServer sampleLines := by
  intro decides
  have inEnvelope := (decides _ _ _ sample_split _ _ sample_inBlock sampleMessage rfl "e@f.org".toList).mp
    (by decide)
  revert inEnvelope
  decide +kernel

/-- The recipient that no header names, and the address of the header, are handed over. -/
theorem recipients_and_headers_sample :
    "e@f.org".toList ∈ (headerAddresses sampleMessage.addresses).map Casing.ascii.toLowercase :=
  (recipients_and_headers sampleServer sampleLines _ _ _ sample_split _ _ sample_inBlock sampleMessage rfl
    _).mpr (.inl (by decide +kernel))

end TutaBridge.Smtp
