import TutaBridge.Mail.SlicedParts
import TutaBridge.Std.Transducer

/-!
# An SMTP connection

`handle_connection` takes a client's lines one by one. A line is part of an AUTH exchange,
a line of a message, or a command; what it is depends on the variables of the loop, which
are the state here. A step writes one exchange: the line, the response to it, and the
message handed to the backend.
-/

namespace TutaBridge.Smtp

open TutaBridge.Std TutaBridge.Mail

variable (server : Server)

/-- `SmtpLimits`. -/
structure SmtpLimits where
  maxMessageBytes : Nat
  maxLineBytes : Nat
deriving DecidableEq, Repr

/-- `SmtpState`. -/
inductive SmtpState where
  | init
  | greeted
  | mailFrom (sender : Text)
  | rcptTo (sender : Text) (recipients : List Text)
  | data (sender : Text) (recipients : List Text)
  | quit
deriving DecidableEq, Repr

/-- `AuthStep`. -/
inductive AuthStep where
  | none
  | waitPlainData
  | waitLoginUser
  | waitLoginPass
deriving DecidableEq, Repr

/-- A server: its password and limits, the case mappings, and whether the backend can send
a message at a moment. -/
structure Server where
  casing : Casing
  passwordHash : Option Text
  limits : SmtpLimits
  sendMail : Nat → ParsedMessage → Bool

/-- The variables of `handle_connection`, whether its loop has ended, and the number of
lines handled. -/
structure Session where
  state : SmtpState
  dataBuf : Text
  inData : Bool
  dataTooLarge : Bool
  authStep : AuthStep
  authenticated : Bool
  ended : Bool
  moment : Nat
deriving DecidableEq, Repr

/-- A line of the client, the response to it, and the message it sends. -/
structure Exchange where
  line : Text
  response : Option String
  sent : Option ParsedMessage
deriving DecidableEq, Repr

/-! ## Passwords -/

/-- The password in AUTH PLAIN data: the third of the fields between zero bytes. -/
def plainPassword (data : Text) : Option Text :=
  (Base64.decodePadded Base64.standard (Text.trim data)).bind fun decoded =>
    match decoded.dropWhile (· ≠ 0) with
    | [] => none
    | _ :: second =>
      match second.dropWhile (· ≠ 0) with
      | [] => none
      | _ :: password => some (Utf8.decodeLossy password)

/-- The password in the last line of AUTH LOGIN. -/
def loginPassword (data : Text) : Option Text :=
  (Base64.decodePadded Base64.standard (Text.trim data)).bind Utf8.decode

/-- `verify_smtp_password`. -/
def verifySmtpPassword (password : Text) (expected : Option Text) : String :=
  match expected with
  | none => "235 2.7.0 Authentication successful\r\n"
  | some expected =>
    if password = expected then "235 2.7.0 Authentication successful\r\n"
    else "535 5.7.8 Authentication failed\r\n"

/-- `verify_smtp_plain_data`. -/
def verifySmtpPlainData (data : Text) (expected : Option Text) : String :=
  verifySmtpPassword ((plainPassword data).getD []) expected

/-! ## Commands -/

/-- The commands of `handle_connection`. -/
inductive Verb where
  | ehlo
  | auth
  | mail
  | rcpt
  | data
  | rset
  | quit
  | noop
  | unknown
deriving DecidableEq, Repr

def verbs : List (String × Verb) :=
  [("EHLO", .ehlo), ("HELO", .ehlo), ("AUTH", .auth), ("MAIL", .mail), ("RCPT", .rcpt),
    ("DATA", .data), ("RSET", .rset), ("QUIT", .quit), ("NOOP", .noop)]

/-- The command of a line, its first word. -/
def verbOf (casing : Casing) (line : Text) : Verb :=
  ((verbs.find? fun arm =>
    arm.1.toList = casing.toUppercase ((Text.words line).head?.getD [])).map Prod.snd).getD .unknown

/-- `extract_address`: what stands in the first angle brackets, or behind the first colon. -/
def extractAddress (line : Text) : Text :=
  let behindColon := Text.trim (((line.splitOn ':')[1]?).getD [])
  match Text.splitOnce '<' line with
  | none => behindColon
  | some (before, rest) =>
    if '>' ∈ before then behindColon
    else ((Text.splitOnce '>' rest).map Prod.fst).getD behindColon

/-- `size_param_exceeds`. -/
def sizeParamExceeds (line : Text) (max : Nat) : Bool :=
  (Text.words line).any fun word =>
    Text.eqIgnoreAsciiCase (word.take 5) "SIZE=".toList && (Text.parseUnsigned 64 (word.drop 5)).any (max < ·)

/-- What follows AUTH in a `splitn(3, ' ')`: the mechanism, and the data if there are any. -/
def authParts (line : Text) : Text × Option Text :=
  match Text.splitOnce ' ' line with
  | none => ([], none)
  | some (_, rest) =>
    match Text.splitOnce ' ' rest with
    | none => (rest, none)
    | some (mechanism, data) => (mechanism, some data)

/-! ## Messages -/

/-- The addresses in the headers of a message. -/
def headerAddresses (headers : AddressHeaders) : List Text :=
  (headers.recipients ++ headers.cc ++ headers.bcc).map Prod.snd

/-- The recipients that no header names, as they are added to `bcc`. -/
def addedBcc (casing : Casing) (envelopeTo : List Text) (headers : AddressHeaders) : List (Text × Text) :=
  let headerAddrs := (headerAddresses headers).map casing.toLowercase
  (envelopeTo.filter fun rcpt => casing.toLowercase rcpt ∉ headerAddrs).map fun rcpt => ([], rcpt)

/-- The message of a DATA block as it is handed over. Parsing it may panic. -/
def submission (casing : Casing) (envelopeTo : List Text) (dataBuf : Text) : Option ParsedMessage :=
  (parseRfc2822? casing dataBuf).map fun parsed =>
    { parsed with
      addresses := { parsed.addresses with
        bcc := parsed.addresses.bcc ++ addedBcc casing envelopeTo parsed.addresses } }

/-- A line of a message without the dot it was stuffed with. -/
def unstuff (line : Text) : Text :=
  if ['.', '.'].isPrefixOf line then line.drop 1 else line

namespace Session

/-- A connection that was just opened. -/
def opened (passwordHash : Option Text) : Session where
  state := .init
  dataBuf := []
  inData := false
  dataTooLarge := false
  authStep := .none
  authenticated := passwordHash.isNone
  ended := false
  moment := 0

/-- A response of success authenticates the session. -/
def noting (response : String) (session : Session) : Session :=
  { session with
    authenticated := session.authenticated || "235".toList.isPrefixOf response.toList }

/-- A line of an AUTH exchange. -/
def handleAuthStep (trimmed : Text) (session : Session) : String × Session :=
  match session.authStep with
  | .waitPlainData =>
    let response := verifySmtpPlainData trimmed server.passwordHash
    (response, { session with authStep := .none }.noting response)
  | .waitLoginUser => ("334 UGFzc3dvcmQ6\r\n", { session with authStep := .waitLoginPass })
  | .waitLoginPass =>
    let response := verifySmtpPassword ((loginPassword trimmed).getD []) server.passwordHash
    (response, { session with authStep := .none }.noting response)
  | .none => ("", session)

/-- The command AUTH. -/
def handleAuth (trimmed : Text) (session : Session) : String × Session :=
  let parts := authParts trimmed
  let mechanism := server.casing.toUppercase parts.1
  if mechanism = "PLAIN".toList then
    match parts.2 with
    | some data =>
      let response := verifySmtpPlainData data server.passwordHash
      (response, session.noting response)
    | none => ("334 \r\n", { session with authStep := .waitPlainData })
  else if mechanism = "LOGIN".toList then
    ("334 VXNlcm5hbWU6\r\n", { session with authStep := .waitLoginUser })
  else ("504 Unrecognized auth type\r\n", session)

/-- A command. -/
def handleCommand (trimmed : Text) (session : Session) : String × Session :=
  let verb := verbOf server.casing trimmed
  if ¬ session.authenticated ∧ (verb = .mail ∨ verb = .rcpt ∨ verb = .data) then
    ("530 5.7.0 Authentication required\r\n", session)
  else
    match verb with
    | .ehlo =>
      ("250-TutaBridge\r\n250-AUTH PLAIN LOGIN\r\n250-8BITMIME\r\n250 SIZE 26214400\r\n",
        { session with state := .greeted })
    | .auth => session.handleAuth server trimmed
    | .mail =>
      if sizeParamExceeds trimmed server.limits.maxMessageBytes then
        ("552 5.3.4 message size exceeds limit\r\n", session)
      else ("250 OK\r\n", { session with state := .mailFrom (extractAddress trimmed) })
    | .rcpt =>
      match session.state with
      | .mailFrom sender =>
        ("250 OK\r\n", { session with state := .rcptTo sender [extractAddress trimmed] })
      | .rcptTo sender recipients =>
        ("250 OK\r\n",
          { session with state := .rcptTo sender (recipients ++ [extractAddress trimmed]) })
      | _ => ("503 Bad sequence\r\n", session)
    | .data =>
      match session.state with
      | .rcptTo sender recipients =>
        ("354 Start mail input; end with <CRLF>.<CRLF>\r\n",
          { session with
            state := .data sender recipients
            inData := true })
      | _ => ("503 Bad sequence\r\n", session)
    | .rset => ("250 OK\r\n", { session with state := .greeted })
    | .quit => ("221 BYE\r\n", { session with state := .quit, ended := true })
    | .noop => ("250 OK\r\n", session)
    | .unknown => ("502 Command not implemented\r\n", session)

/-- The end of a DATA block. -/
def endData (line : Text) (session : Session) : Exchange × Session :=
  let closed := { session with
    state := .greeted
    dataBuf := []
    inData := false
    dataTooLarge := false }
  if session.dataTooLarge then
    (⟨line, some "552 5.3.4 message size exceeds limit\r\n", none⟩, closed)
  else
    let envelopeTo := match session.state with
      | .data _ recipients => recipients
      | _ => []
    match submission server.casing envelopeTo session.dataBuf with
    | some message =>
      let response :=
        if server.sendMail session.moment message then "250 OK message sent\r\n"
        else "451 Temporary failure\r\n"
      (⟨line, some response, some message⟩, closed)
    -- The panic ends the task, with its variables and without a response.
    | none => (⟨line, none, none⟩, { closed with ended := true })

/-- A line of a DATA block. -/
def handleData (line : Text) (session : Session) : Exchange × Session :=
  if Text.trimEnd line = ['.'] then session.endData server line
  else if session.dataTooLarge then (⟨line, none, none⟩, session)
  else if server.limits.maxMessageBytes <
      (Utf8.encode session.dataBuf).length + (Utf8.encode (unstuff line)).length then
    (⟨line, none, none⟩, { session with dataTooLarge := true, dataBuf := [] })
  else (⟨line, none, none⟩, { session with dataBuf := session.dataBuf ++ unstuff line })

/-- The session goes on to the next line. -/
def next (session : Session) : Session := { session with moment := session.moment + 1 }

/-- The loop body of `handle_connection`, on the octets of a line. -/
def handleLine (session : Session) (raw : List UInt8) : List Exchange × Session :=
  let line := Utf8.decodeLossy raw
  if session.ended then ([], session)
  else if server.limits.maxLineBytes < raw.length then
    ([⟨line, some "500 5.5.2 line too long\r\n", none⟩], { session.next with ended := true })
  else if session.authStep ≠ .none then
    let done := session.handleAuthStep server (Text.trimEnd line)
    ([⟨line, some done.1, none⟩], done.2.next)
  else if session.inData then
    let done := session.handleData server line
    ([done.1], done.2.next)
  else
    let done := session.handleCommand server (Text.trimEnd line)
    ([⟨line, some done.1, none⟩], done.2.next)

end Session

/-- `handle_connection` on the lines of a client: the exchanges, and the session they lead
to. -/
def handleConnection (lines : List (List UInt8)) : List Exchange × Session :=
  run (Session.handleLine server) (.opened server.passwordHash) lines

end TutaBridge.Smtp
