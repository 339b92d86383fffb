import TutaBridge.Imap.Connection
import TutaBridge.Smtp.Transactions

/-!
# Lines from the network

What arrives on a connection is cut anywhere. The lines that are read of it are the same
for every cut, and a message that a client sends with its dots stuffed is handed over as it
was, if each of its lines is within the cap as it is sent.
-/

namespace TutaBridge.Smtp

open TutaBridge.Std TutaBridge.Mail
open TutaBridge.Imap (crlf)
open TutaBridge.Imap.Connection (lineFeed)

variable {line : List UInt8} {server : Server}

/-! ## Reading lines -/

/-- `LineOutcome`, with the octets that were read. -/
inductive LineOutcome where
  | line (raw : List UInt8)
  | eof
  | tooLong (raw : List UInt8)
deriving DecidableEq

/-- `finish_line`. -/
def finishLine (maxBytes : Nat) (raw : List UInt8) : LineOutcome :=
  if maxBytes < raw.length then .tooLong raw else .line raw

/-- `read_line_capped`, from what fills the buffer time and again, with what is left of it.
A part that is used up is no end of the stream; the next one follows. -/
def readLineCapped (maxBytes : Nat) : (raw : List UInt8) → List (List UInt8) → LineOutcome × List (List UInt8)
  | raw, [] => (if raw = [] then .eof else finishLine maxBytes raw, [])
  | raw, available :: later =>
    if lineFeed ∈ available then
      (finishLine maxBytes (raw ++ available.takeWhile (· ≠ lineFeed) ++ [lineFeed]),
        (available.dropWhile (· ≠ lineFeed)).drop 1 :: later)
    else if maxBytes < (raw ++ available).length then (.tooLong (raw ++ available), later)
    else readLineCapped maxBytes (raw ++ available) later

/-- Octets that are a line within the cap. -/
def IsLine (maxBytes : Nat) (raw : List UInt8) : Prop :=
  raw.length ≤ maxBytes ∧ ∃ body, lineFeed ∉ body ∧ raw = body ++ [lineFeed]

section Reading

variable {maxBytes : Nat} {raw body later : List UInt8} {reader : List (List UInt8)}

theorem cut_at_lineFeed (unended : lineFeed ∉ body) (behind : List UInt8) :
    (body ++ lineFeed :: behind).takeWhile (· ≠ lineFeed) = body ∧
      (body ++ lineFeed :: behind).dropWhile (· ≠ lineFeed) = lineFeed :: behind := by
  have kept : ∀ byte ∈ body, decide (byte ≠ lineFeed) = true := fun byte mem =>
    decide_eq_true fun same => unended (same ▸ mem)
  constructor
  · rw [List.takeWhile_append_of_pos kept, List.takeWhile_cons_of_neg (by simp), List.append_nil]
  · rw [List.dropWhile_append_of_pos kept, List.dropWhile_cons_of_neg (by simp)]

/-- A line is read whole, and what follows it is left, however both arrive. -/
theorem readLineCapped_body (short : (raw ++ body ++ [lineFeed]).length ≤ maxBytes)
    (unended : lineFeed ∉ body) (arrives : reader.flatten = body ++ lineFeed :: later) :
    ∃ rest, rest.flatten = later ∧
      readLineCapped maxBytes raw reader = (.line (raw ++ body ++ [lineFeed]), rest) := by
  induction reader generalizing raw body with
  | nil => simp at arrives
  | cons available parts ih =>
    rw [List.flatten_cons] at arrives
    -- The part ends before the line feed, or behind it.
    have cases' : (∃ more, body = available ++ more ∧ parts.flatten = more ++ lineFeed :: later) ∨
        ∃ behind, available = body ++ lineFeed :: behind ∧ later = behind ++ parts.flatten := by
      rcases List.append_eq_append_iff.mp arrives with ⟨more, isBody, isRest⟩ | ⟨behind, isPart, isRest⟩
      · exact .inl ⟨more, isBody, isRest⟩
      · cases behind with
        | nil => exact .inl ⟨[], by simpa using isPart.symm, by simpa using isRest.symm⟩
        | cons first behind =>
          obtain ⟨rfl, isLater⟩ := List.cons.inj isRest
          exact .inr ⟨behind, isPart, isLater⟩
    rcases cases' with ⟨more, rfl, isRest⟩ | ⟨behind, rfl, rfl⟩
    · have absent : lineFeed ∉ available := fun mem =>
        unended (List.mem_append_left _ mem)
      have shorter : ¬ maxBytes < (raw ++ available).length := by
        simp only [List.length_append] at short ⊢
        omega
      rw [readLineCapped, if_neg absent, if_neg shorter]
      rw [← List.append_assoc] at short ⊢
      exact ih short (fun mem => unended (List.mem_append_right _ mem)) isRest
    · obtain ⟨taken, dropped⟩ := cut_at_lineFeed unended behind
      refine ⟨behind :: parts, List.flatten_cons, ?_⟩
      rw [readLineCapped, if_pos (by simp), taken, dropped, finishLine, if_neg (Nat.not_lt.mpr short)]
      rfl

theorem readLineCapped_line (isLine : IsLine maxBytes line) (arrives : reader.flatten = line ++ later) :
    ∃ rest, rest.flatten = later ∧ readLineCapped maxBytes [] reader = (.line line, rest) := by
  obtain ⟨short, body, unended, rfl⟩ := isLine
  exact @readLineCapped_body maxBytes [] body later reader (by simpa using short) unended
    (by simpa using arrives)

/-- What is read of the stream is no longer there. -/
theorem length_of_readLineCapped {rest : List (List UInt8)}
    (reads : readLineCapped maxBytes raw reader = (.line line, rest)) :
    line.length + rest.flatten.length = raw.length + reader.flatten.length ∧ line ≠ [] := by
  induction reader generalizing raw with
  | nil =>
    rw [readLineCapped] at reads
    split at reads
    · cases reads
    next notEmpty =>
      rw [finishLine] at reads
      split at reads
      · cases reads
      · cases reads
        exact ⟨rfl, notEmpty⟩
  | cons available parts ih =>
    rw [readLineCapped] at reads
    split at reads
    next ended =>
      rw [finishLine] at reads
      split at reads
      · cases reads
      · cases reads
        obtain ⟨body, behind, rfl, unended⟩ := List.eq_append_cons_of_mem ended
        obtain ⟨taken, dropped⟩ := cut_at_lineFeed unended behind
        rw [taken, dropped]
        refine ⟨?_, by simp⟩
        simp only [List.length_append, List.flatten_cons, List.length_cons, List.length_nil,
          List.drop_succ_cons, List.drop_zero]
        omega
    · split at reads
      · cases reads
      · obtain ⟨sameLength, notEmpty⟩ := ih reads
        refine ⟨?_, notEmpty⟩
        rw [sameLength, List.flatten_cons, List.length_append, List.length_append]
        omega

theorem shorter_of_readLineCapped {rest : List (List UInt8)}
    (reads : readLineCapped maxBytes [] reader = (.line line, rest)) :
    rest.flatten.length < reader.flatten.length := by
  obtain ⟨sameLength, notEmpty⟩ := length_of_readLineCapped reads
  have positive := List.length_pos_iff.mpr notEmpty
  rw [List.length_nil] at sameLength
  omega

end Reading

/-- `handle_connection` on a stream: line after line until it ends, or the session does. -/
def converse (server : Server) (session : Session) (reader : List (List UInt8)) : List Exchange × Session :=
  if session.ended then ([], session)
  else
    match reads : readLineCapped server.limits.maxLineBytes [] reader with
    | (.eof, _) => ([], session)
    | (.tooLong raw, _) => session.handleLine server raw
    | (.line raw, rest) =>
      have _shorter := shorter_of_readLineCapped reads
      let done := session.handleLine server raw
      ((done.1 ++ (converse server done.2 rest).1), (converse server done.2 rest).2)
termination_by reader.flatten.length
decreasing_by all_goals exact _shorter

theorem handleLine_ended {session : Session} (ended : session.ended = true)
    (raw : List UInt8) : session.handleLine server raw = ([], session) := by
  rw [Session.handleLine]
  exact if_pos ended

theorem converse_ended {session : Session} (ended : session.ended = true)
    (reader : List (List UInt8)) : converse server session reader = ([], session) := by
  rw [converse]
  exact if_pos ended

/-- A line that was read is handled, and then the others are. -/
theorem converse_line {session : Session} {reader rest : List (List UInt8)}
    (reads : readLineCapped server.limits.maxLineBytes [] reader = (.line line, rest)) :
    converse server session reader = ((session.handleLine server line).1 ++
          (converse server (session.handleLine server line).2 rest).1,
        (converse server (session.handleLine server line).2 rest).2) := by
  by_cases ended : session.ended
  · rw [handleLine_ended ended, converse_ended ended, converse_ended ended]
    rfl
  · rw [converse, if_neg ended]
    split
    next same => rw [reads] at same; cases same
    next same => rw [reads] at same; cases same
    next same =>
      rw [reads] at same
      cases same
      rfl

/-- Lines within the cap are handled one by one, however the stream is cut. -/
theorem converse_lines {lines : List (List UInt8)} {later : List UInt8}
    (areLines : ∀ line ∈ lines, IsLine server.limits.maxLineBytes line) (session : Session)
    {reader : List (List UInt8)} (arrives : reader.flatten = lines.flatten ++ later) : ∃ rest, rest.flatten = later ∧
      converse server session reader = ((run (Session.handleLine server) session lines).1 ++
            (converse server (run (Session.handleLine server) session lines).2 rest).1,
          (converse server (run (Session.handleLine server) session lines).2 rest).2) := by
  induction lines generalizing session reader with
  | nil => exact ⟨reader, arrives, by rw [run_nil, List.nil_append]⟩
  | cons line others ih =>
    obtain ⟨isLine, areOthers⟩ := List.forall_mem_cons.mp areLines
    rw [List.flatten_cons, List.append_assoc] at arrives
    obtain ⟨rest, isRest, reads⟩ := readLineCapped_line isLine arrives
    obtain ⟨left, isLater, same⟩ :=
      ih areOthers (session.handleLine server line).2 isRest
    refine ⟨left, isLater, ?_⟩
    rw [converse_line reads, same, run_cons]
    dsimp only
    rw [List.append_assoc]

/-! ## A message -/

/-- A message of lines, which hold no line feed. -/
structure Message where
  lines : List Text
  oneLine : ∀ line ∈ lines, '\n' ∉ line

namespace Message

/-- The text of a message, each line with its end. -/
def text (message : Message) : Text := message.lines.flatMap (· ++ crlf)

/-- A line as it is sent: with another dot if it begins with one. -/
def stuff (line : Text) : Text :=
  match line with
  | '.' :: rest => '.' :: '.' :: rest
  | _ => line

/-- The lines that a client sends: the message's, and a lone dot. -/
def sentLines (message : Message) : List Text := message.lines.map stuff ++ [['.']]

/-- The octets of each. -/
def sent (message : Message) : List (List UInt8) :=
  message.sentLines.map fun line => Utf8.encode (line ++ crlf)

/-- The message and the lines it is sent in are within the limits. -/
structure Fits (message : Message) (limits : SmtpLimits) : Prop where
  size : (Utf8.encode message.text).length ≤ limits.maxMessageBytes
  lines : ∀ octets ∈ message.sent, octets.length ≤ limits.maxLineBytes

end Message

section Stuffing

variable {line : Text}

theorem lineFeed_not_mem_stuff (oneLine : '\n' ∉ line) : '\n' ∉ Message.stuff line := by
  unfold Message.stuff
  split
  · simpa using oneLine
  · exact oneLine

/-- A line that is sent is taken off the dot it was stuffed with. -/
theorem unstuff_stuff (line : Text) : unstuff (Message.stuff line ++ crlf) = line ++ crlf := by
  unfold Message.stuff
  split
  · rfl
  next noDot =>
    rw [unstuff, if_neg]
    cases line with
    | nil => decide
    | cons first rest =>
      intro isPrefix
      rw [List.cons_append, List.isPrefixOf_cons_cons, Bool.and_eq_true, beq_iff_eq] at isPrefix
      exact noDot rest (by rw [← isPrefix.1])

/-- No line of a message is sent as a lone dot. -/
theorem trimEnd_stuff (line : Text) : Text.trimEnd (Message.stuff line ++ crlf) ≠ ['.'] := by
  unfold Message.stuff
  split
  next rest =>
    have cut := @Text.trimEnd_append ['.'] (rest ++ crlf) '.' (by decide)
    rw [List.cons_append, List.cons_append, show ('.' :: '.' :: (rest ++ crlf)) =
      ['.'] ++ '.' :: (rest ++ crlf) from rfl, cut]
    simp
  next noDot =>
    cases line with
    | nil => decide
    | cons first rest =>
      intro isDot
      have isPrefix := List.rdropWhile_prefix Text.isWhitespace (l := first :: rest ++ crlf)
      rw [Text.trimEnd] at isDot
      rw [isDot, List.cons_append, List.cons_prefix_cons] at isPrefix
      exact noDot rest (by rw [← isPrefix.1])

end Stuffing

/-! ## The session takes a message -/

/-- A session that waits for the first line of a message, for these recipients. -/
structure Session.AtData (session : Session) (sender : Text) (recipients : List Text) : Prop where
  state : session.state = .data sender recipients
  fresh : session.dataBuf = []
  inData : session.inData = true
  small : session.dataTooLarge = false
  noExchange : session.authStep = .none
  live : session.ended = false

/-- The session behind a message of so many lines. -/
def Session.behind (session : Session) (count : Nat) : Session :=
  { session with
    state := .greeted
    dataBuf := []
    inData := false
    dataTooLarge := false
    moment := session.moment + count }

/-- The exchange of a line of a message. -/
def silent (line : Text) : Exchange := ⟨Message.stuff line ++ crlf, none, none⟩

section Taking

variable {server : Server} {session : Session}

theorem handleLine_inData (live : session.ended = false) (noExchange : session.authStep = .none)
    (inData : session.inData = true) {line : Text} (short : (Utf8.encode line).length ≤ server.limits.maxLineBytes) :
    session.handleLine server (Utf8.encode line) =
      ([(session.handleData server line).1], (session.handleData server line).2.next) := by
  rw [Session.handleLine, Utf8.decodeLossy_encode]
  dsimp only
  rw [if_neg (by simp [live]), if_neg (Nat.not_lt.mpr short), if_neg (not_not_intro noExchange),
    if_pos inData]

/-- The lines of a message fill the buffer with its text. -/
theorem run_lines {lines : List Text} (live : session.ended = false)
    (noExchange : session.authStep = .none) (inData : session.inData = true)
    (small : session.dataTooLarge = false)
    (fits : (Utf8.encode (session.dataBuf ++ lines.flatMap (· ++ crlf))).length ≤
      server.limits.maxMessageBytes)
    (short : ∀ line ∈ lines, (Utf8.encode (Message.stuff line ++ crlf)).length ≤ server.limits.maxLineBytes) :
    run (Session.handleLine server) session (lines.map fun line => Utf8.encode (Message.stuff line ++ crlf)) =
      (lines.map silent,
        { session with
          dataBuf := session.dataBuf ++ lines.flatMap (· ++ crlf)
          moment := session.moment + lines.length }) := by
  induction lines generalizing session with
  | nil => simp [run_nil]
  | cons line rest ih =>
    obtain ⟨shortLine, shortRest⟩ := List.forall_mem_cons.mp short
    have split : session.dataBuf ++ (line :: rest).flatMap (· ++ crlf) =
        session.dataBuf ++ (line ++ crlf) ++ rest.flatMap (· ++ crlf) := by
      simp [List.append_assoc]
    rw [split] at fits ⊢
    have room : ¬ server.limits.maxMessageBytes <
        (Utf8.encode session.dataBuf).length + (Utf8.encode (line ++ crlf)).length := by
      rw [Utf8.encode_append, Utf8.encode_append, List.length_append, List.length_append] at fits
      omega
    have taken : session.handleLine server (Utf8.encode (Message.stuff line ++ crlf)) = ([silent line],
          { session with
            dataBuf := session.dataBuf ++ (line ++ crlf)
            moment := session.moment + 1 }) := by
      rw [handleLine_inData live noExchange inData shortLine, Session.handleData,
        if_neg (trimEnd_stuff line), if_neg (by simp [small]), unstuff_stuff, if_neg room]
      rfl
    have later := @ih
      { session with
        dataBuf := session.dataBuf ++ (line ++ crlf)
        moment := session.moment + 1 } live noExchange inData small fits shortRest
    rw [List.map_cons, run_cons, taken]
    dsimp only
    rw [later]
    simp only [List.map_cons, List.singleton_append, List.length_cons, Nat.add_assoc, Nat.add_comm 1]

/-- A message that fits, and that the parser reads, is handed over as it is. -/
theorem run_message {sender : Text} {recipients : List Text} (atData : session.AtData sender recipients)
    {message : Message} (fits : message.Fits server.limits) {handedOver : ParsedMessage}
    (read : submission server.casing recipients message.text = some handedOver) :
    ∃ response, run (Session.handleLine server) session message.sent =
      (message.lines.map silent ++ [⟨'.' :: crlf, some response, some handedOver⟩],
        session.behind (message.lines.length + 1)) := by
  obtain ⟨state, fresh, inData, small, noExchange, live⟩ := atData
  have short : ∀ line ∈ message.lines,
      (Utf8.encode (Message.stuff line ++ crlf)).length ≤ server.limits.maxLineBytes := by
    intro line mem
    refine fits.lines _ (List.mem_map.mpr ⟨_, List.mem_append_left _ ?_, rfl⟩)
    exact List.mem_map_of_mem mem
  have shortDot : (Utf8.encode ('.' :: crlf)).length ≤ server.limits.maxLineBytes := by
    refine fits.lines _ (List.mem_map.mpr ⟨['.'], List.mem_append_right _ ?_, rfl⟩)
    exact List.mem_singleton_self _
  have whole := @run_lines server session message.lines live noExchange inData small
    (by rw [fresh]; exact fits.size) short
  have isDot : Text.trimEnd ('.' :: crlf) = ['.'] := by decide
  refine ⟨if server.sendMail (session.moment + message.lines.length) handedOver then
    "250 OK message sent\r\n" else "451 Temporary failure\r\n", ?_⟩
  rw [Message.sent, Message.sentLines, List.map_append, List.map_map, List.map_singleton, run_append]
  have sameLines : message.lines.map ((fun line => Utf8.encode (line ++ crlf)) ∘ Message.stuff) =
      message.lines.map fun line => Utf8.encode (Message.stuff line ++ crlf) := rfl
  rw [sameLines, whole, fresh]
  dsimp only
  rw [run_cons, run_nil, List.append_nil, List.singleton_append, handleLine_inData]
  · rw [Session.handleData, if_pos isDot, Session.endData, small, if_neg Bool.false_ne_true, state]
    dsimp only
    rw [List.nil_append, ← Message.text, read]
    rfl
  · exact live
  · exact noExchange
  · exact inData
  · exact shortDot

theorem verifySmtpPassword_ne_startMail (given : Text) (expected : Option Text) :
    verifySmtpPassword given expected ≠ startMail := by
  rcases verifySmtpPassword_cases given expected with ⟨-, verdict⟩ | verdict
  · rw [verdict]
    decide
  · rw [verdict]
    decide

theorem ne_startMail {response : String} (other : response ≠ startMail) (session : Session) :
    (response, session).1 ≠ startMail := other

theorem handleAuthStep_ne_startMail (line : Text) : (session.handleAuthStep server line).1 ≠ startMail := by
  unfold Session.handleAuthStep
  split
  · exact verifySmtpPassword_ne_startMail _ _
  · exact ne_startMail (by decide) _
  · exact verifySmtpPassword_ne_startMail _ _
  · exact ne_startMail (by decide) _

theorem handleAuth_ne_startMail (line : Text) : (session.handleAuth server line).1 ≠ startMail := by
  unfold Session.handleAuth
  dsimp only
  split
  · split
    · exact verifySmtpPassword_ne_startMail _ _
    · exact ne_startMail (by decide) _
  · split <;> exact ne_startMail (by decide) _

/-- The command that is answered with a request for the message is a DATA behind a RCPT. -/
theorem atData_handleCommand {history : List Exchange} (follows : Follows server history session)
    (outside : session.inData = false) (noExchange : session.authStep = .none)
    (live : session.ended = false) {line : Text} (opens : (session.handleCommand server line).1 = startMail) :
    ∃ sender, (session.handleCommand server line).2.AtData sender (recipients server.casing history) := by
  unfold Session.handleCommand at opens ⊢
  dsimp only at opens ⊢
  split at opens
  · exact absurd opens (ne_startMail (by decide) _)
  next allowed =>
    rw [if_neg allowed]
    cases verb : verbOf server.casing line with
    | data =>
      rw [verb] at opens
      dsimp only at opens ⊢
      cases state : session.state with
      | rcptTo sender accepted =>
        obtain ⟨fresh, small, -⟩ := follows.outside outside
        have isAccepted := (follows.rcptTo sender accepted state).2.1
        exact ⟨sender, congrArg _ isAccepted, fresh, rfl, small, noExchange, live⟩
      | init | greeted | mailFrom | data | quit =>
        rw [state] at opens
        exact absurd opens (ne_startMail (by decide) _)
    | auth =>
      rw [verb] at opens
      exact absurd opens (handleAuth_ne_startMail line)
    | mail =>
      rw [verb] at opens
      dsimp only at opens
      split at opens <;> exact absurd opens (ne_startMail (by decide) _)
    | rcpt =>
      rw [verb] at opens
      dsimp only at opens
      split at opens <;> exact absurd opens (ne_startMail (by decide) _)
    | ehlo | rset | quit | noop | unknown =>
      rw [verb] at opens
      exact absurd opens (ne_startMail (by decide) _)

theorem AtData.next {sender : Text} {accepted : List Text} (atData : session.AtData sender accepted) :
    session.next.AtData sender accepted :=
  ⟨atData.state, atData.fresh, atData.inData, atData.small, atData.noExchange, atData.live⟩

/-- A line that is answered with a request for the message leaves a session that waits for
its first line. -/
theorem atData_handleLine {history : List Exchange} (kept : Kept server history session)
    {raw : List UInt8} {line : Text} (opens : (session.handleLine server raw).1 = [⟨line, some startMail, none⟩]) :
    ∃ sender, (session.handleLine server raw).2.AtData sender (recipients server.casing history) := by
  have answers {exchange : Exchange} (same : [exchange] = [⟨line, some startMail, none⟩]) :
      exchange.response = some startMail := by
    rw [(List.cons.inj same).1]
  by_cases ended : session.ended = true
  · rw [handleLine_ended ended] at opens
    cases opens
  · have follows := kept.resolve_right fun stopped => ended stopped.1
    unfold Session.handleLine at opens ⊢
    dsimp only at opens ⊢
    rw [if_neg ended] at opens ⊢
    split at opens
    · exact absurd (Option.some.inj (answers opens)) (by decide)
    next short =>
      rw [if_neg short]
      split at opens
      · exact absurd (Option.some.inj (answers opens)) (handleAuthStep_ne_startMail _)
      next idle =>
        rw [if_neg idle]
        split at opens
        next inData =>
          exfalso
          have response := answers opens
          unfold Session.handleData Session.endData at response
          split at response
          · dsimp only at response
            split at response
            · exact absurd (Option.some.inj response) (by decide)
            · split at response
              · split at response <;> exact absurd (Option.some.inj response) (by decide)
              · cases response
          · split at response
            · cases response
            · split at response <;> cases response
        next outside =>
          rw [if_neg outside]
          obtain ⟨sender, atData⟩ := atData_handleCommand follows (eq_false_of_ne_true outside)
            (not_not.mp idle) (eq_false_of_ne_true ended) (Option.some.inj (answers opens))
          exact ⟨sender, AtData.next atData⟩

/-- The line behind a message is a command. -/
theorem handleLine_behind {sender : Text} {accepted : List Text} (atData : session.AtData sender accepted)
    (count : Nat) {raw : List UInt8} (short : raw.length ≤ server.limits.maxLineBytes) :
    (session.behind count).handleLine server raw = ([⟨Utf8.decodeLossy raw,
          some ((session.behind count).handleCommand server (Text.trimEnd (Utf8.decodeLossy raw))).1, none⟩],
        ((session.behind count).handleCommand server (Text.trimEnd (Utf8.decodeLossy raw))).2.next) := by
  have live : (session.behind count).ended = false := atData.live
  have noExchange : (session.behind count).authStep = .none := atData.noExchange
  have outside : ¬ (session.behind count).inData = true := Bool.false_ne_true
  rw [Session.handleLine]
  dsimp only
  rw [if_neg (by simp [live]), if_neg (Nat.not_lt.mpr short), if_neg (not_not_intro noExchange),
    if_neg outside]

end Taking

/-- The exchanges of a message that is handed over: no response to its lines, and to the lone
dot whether it was sent. -/
def taken (message : Message) (response : String) (handedOver : ParsedMessage) : List Exchange :=
  message.lines.map silent ++ [⟨'.' :: crlf, some response, some handedOver⟩]

/-- The lines up to the message, the message as it is sent, and the line behind it. -/
def dialogue (before : List (List UInt8)) (opening : List UInt8) (message : Message)
    (command : List UInt8) : List (List UInt8) :=
  before ++ [opening] ++ message.sent ++ [command]

theorem isLine_of_fits {limits : SmtpLimits} {message : Message} (fits : message.Fits limits) :
    ∀ octets ∈ message.sent, IsLine limits.maxLineBytes octets := by
  intro octets mem
  refine ⟨fits.lines octets mem, ?_⟩
  obtain ⟨line, isSent, rfl⟩ := List.mem_map.mp mem
  refine ⟨_, Imap.lineFeed_not_mem_encode ?_, Imap.encode_crlf line⟩
  rcases List.mem_append.mp isSent with isStuffed | isDot
  · obtain ⟨text, isLine, rfl⟩ := List.mem_map.mp isStuffed
    exact lineFeed_not_mem_stuff (message.oneLine text isLine)
  · rw [List.mem_singleton.mp isDot]
    decide

/-- Behind a line that is answered with a request for a message, a message that fits, and at
which the parser does not panic, is handed over as it is, for the recipients of the
transaction, and the line behind it is a command, in whatever parts all of this arrives. -/
theorem data_is_transparent (server : Server) (before : List (List UInt8)) (opening : List UInt8)
    (areLines : ∀ line ∈ before ++ [opening], IsLine server.limits.maxLineBytes line)
    (opens : ∃ line, ((handleConnection server before).2.handleLine server opening).1 = [⟨line, some startMail, none⟩])
    (message : Message) (fits : message.Fits server.limits)
    (inside : PartsInside server.casing message.text) (command : List UInt8)
    (isLine : IsLine server.limits.maxLineBytes command) (later : List UInt8) (reader : List (List UInt8))
    (arrives : reader.flatten = (dialogue before opening message command).flatten ++ later) :
    (∃ rest, rest.flatten = later ∧ converse server (.opened server.passwordHash) reader =
        ((handleConnection server (dialogue before opening message command)).1 ++ (converse server
              (handleConnection server (dialogue before opening message command)).2 rest).1,
          (converse server (handleConnection server (dialogue before opening message command)).2 rest).2)) ∧
      ∃ (response : String) (handedOver : ParsedMessage) (session : Session),
        submission server.casing (recipients server.casing (handleConnection server before).1)
          message.text = some handedOver ∧
        session.inData = false ∧ session.authStep = .none ∧ session.ended = false ∧
        handleConnection server (dialogue before opening message command) =
          ((handleConnection server (before ++ [opening])).1 ++ taken message response handedOver ++
              [⟨Utf8.decodeLossy command,
                some (session.handleCommand server (Text.trimEnd (Utf8.decodeLossy command))).1, none⟩],
            (session.handleCommand server (Text.trimEnd (Utf8.decodeLossy command))).2.next) := by
  constructor
  · refine converse_lines ?_ (.opened server.passwordHash) arrives
    intro octets mem
    rw [dialogue, List.mem_append, List.mem_append, List.mem_singleton] at mem
    rcases mem with (isBefore | isMessage) | rfl
    · exact areLines octets isBefore
    · exact isLine_of_fits fits octets isMessage
    · exact isLine
  · obtain ⟨line, opens⟩ := opens
    obtain ⟨sender, atData⟩ := atData_handleLine (kept_handleConnection server before).1 opens
    obtain ⟨handedOver, read⟩ := Option.isSome_iff_exists.mp ((@isSome_submission_iff server.casing
      (recipients server.casing (handleConnection server before).1) message.text).mpr inside)
    obtain ⟨response, whole⟩ := run_message atData fits read
    have isCommand := handleLine_behind atData (message.lines.length + 1) isLine.1
    refine ⟨response, handedOver, ((handleConnection server before).2.handleLine server opening).2.behind
      (message.lines.length + 1), read, rfl, atData.noExchange, atData.live, ?_⟩
    have opened : (handleConnection server (before ++ [opening])).2 =
        ((handleConnection server before).2.handleLine server opening).2 := by
      rw [handleConnection, run_concat]
      rfl
    rw [← opened] at whole isCommand ⊢
    unfold handleConnection at whole isCommand ⊢
    rw [dialogue, run_append, run_append, whole]
    dsimp only
    rw [run_cons, run_nil, isCommand, List.append_nil]
    rfl

/-- A server that takes lines of 21 octets. -/
def tightServer : Server := ⟨.ascii, none, ⟨1000, 21⟩, fun _ _ => true⟩

def tightBefore : List (List UInt8) :=
  ["MAIL FROM:<a@b.com>\r\n", "RCPT TO:<c@d.com>\r\n"].map fun line => Utf8.encode line.toList

def dataLine : List UInt8 := Utf8.encode "DATA\r\n".toList

def noopLine : List UInt8 := Utf8.encode "NOOP\r\n".toList

/-- A message of a header, an empty line, and a line that begins with a dot. -/
def dotMessage : Message where
  lines := ["To: <e@f.org>".toList, [], ".a".toList]
  oneLine := by decide

/-- A message that arrives octet by octet is handed over as it is. -/
theorem data_is_transparent_dot : ∃ response handedOver session,
      submission .ascii (recipients .ascii (handleConnection tightServer tightBefore).1)
        dotMessage.text = some handedOver ∧
      session.inData = false ∧ session.authStep = .none ∧ session.ended = false ∧
      handleConnection tightServer (dialogue tightBefore dataLine dotMessage noopLine) =
        ((handleConnection tightServer (tightBefore ++ [dataLine])).1 ++ taken dotMessage response handedOver ++
            [⟨Utf8.decodeLossy noopLine,
              some (Session.handleCommand tightServer (Text.trimEnd (Utf8.decodeLossy noopLine)) session).1, none⟩],
          (Session.handleCommand tightServer (Text.trimEnd (Utf8.decodeLossy noopLine)) session).2.next) :=
  (data_is_transparent tightServer tightBefore dataLine (by
      intro line mem
      refine ⟨?_, line.dropLast, ?_⟩
      · revert line
        decide
      · revert line
        decide)
    ⟨"DATA\r\n".toList, by decide +kernel⟩ dotMessage ⟨by decide +kernel, by decide +kernel⟩
    (isSome_parseRfc2822?_iff.mp (by decide +kernel)) noopLine
    ⟨by decide, Utf8.encode "NOOP\r".toList, by decide, by decide⟩ []
    ((dialogue tightBefore dataLine dotMessage noopLine).flatten.map ([·]))
    (by decide +kernel)).2

/-- A message whose line is as long as the cap, and begins with a dot. -/
def longDotMessage : Message where
  lines := [".aaaaaaaaaaaaaaaaaa".toList]
  oneLine := by decide

/-- With the dot it is stuffed with, a line of a message can be over the cap: the session
ends at it. -/
theorem stuffed_line_is_too_long : ((∀ line ∈ longDotMessage.lines,
        (Utf8.encode (line ++ crlf)).length ≤ tightServer.limits.maxLineBytes) ∧
      (Utf8.encode longDotMessage.text).length ≤ tightServer.limits.maxMessageBytes) ∧
      (handleConnection tightServer (dialogue tightBefore dataLine longDotMessage noopLine)).1 =
        [⟨"MAIL FROM:<a@b.com>\r\n".toList, some ok, none⟩, ⟨"RCPT TO:<c@d.com>\r\n".toList, some ok, none⟩,
          ⟨"DATA\r\n".toList, some startMail, none⟩,
          ⟨"..aaaaaaaaaaaaaaaaaa\r\n".toList, some lineTooLong, none⟩] := by
  decide +kernel

end TutaBridge.Smtp
