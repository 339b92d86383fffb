import TutaBridge.Imap.Names
import TutaBridge.Mail.SlicedParts
import TutaBridge.Std.Transducer

/-!
# An IMAP connection

`run_connection_loop` takes the octets of a client as lines, except for the literal of an
APPEND it accepts, and writes the responses. A line is a command, the answer to
AUTHENTICATE, or, while the client idles, a `DONE` to wait for. The step here is one
octet, so that lines and literals may be cut in any way. What a connection reads of the
bridge's contents is a parameter of each step.
-/

namespace TutaBridge.Imap

open TutaBridge.Std Tuta Store TutaBridge.Mail

variable (bridge : Bridge) (casing : Casing)

/-- What a connection may ask of the bridge's contents at a moment: the store, and the
store again for a refresh after a comparison; the UID of Tuta's own copy of a sent mail, by
mailbox and message id; and what the commands on messages of a selected mailbox answer,
with the view they leave. -/
structure Contents where
  store : MailStore
  reread : MailStore
  sentCopyUid : (mailbox messageId : Text) → Option Nat
  selectedAnswer : ImapSession → CommandLine → List Text × List CachedMail

/-- A bridge, as a connection sees it: its contents at each moment a line is handled. -/
structure Bridge where
  casing : Casing
  contents : Nat → Contents

/-- What the octets that arrive next are taken as. -/
inductive Reading where
  | line
  | literal (request : AppendRequest)
  | tail (request : AppendRequest) (literal : List UInt8)
  | ended
deriving DecidableEq

/-- The state of `run_connection_loop`: the session, with the tag of a pending
AUTHENTICATE; the octets read of the current line or literal; and the number of lines
handled. -/
structure Connection where
  session : ImapSession
  authTag : Option Text
  reading : Reading
  pending : List UInt8
  moment : Nat
deriving DecidableEq

/-- What reaches the loop: an octet, a change of the store, or the end of the stream. -/
inductive Arrival where
  | octet (byte : UInt8)
  | storeChanged
  | closed
deriving DecidableEq

/-! ## Commands -/

/-- The commands of `handle_command`; `message` stands for FETCH, UID, EXPUNGE, SEARCH,
STORE and MOVE, which need a selected mailbox. -/
inductive Verb where
  | capability
  | noop
  | logout
  | login
  | authenticate
  | list
  | select
  | status
  | message
  | close
  | copy
  | idle
  | namespaces
  | unknown
deriving DecidableEq, Repr

/-- The arms of `handle_command`. -/
def verbs : List (String × Verb) :=
  [("CAPABILITY", .capability), ("NOOP", .noop), ("LOGOUT", .logout), ("LOGIN", .login),
    ("AUTHENTICATE", .authenticate), ("LIST", .list), ("LSUB", .list), ("SELECT", .select),
    ("EXAMINE", .select), ("STATUS", .status), ("FETCH", .message), ("UID", .message),
    ("CLOSE", .close), ("EXPUNGE", .message), ("SEARCH", .message), ("STORE", .message),
    ("MOVE", .message), ("COPY", .copy), ("IDLE", .idle), ("NAMESPACE", .namespaces)]

def verbOf (command : Text) : Verb :=
  ((verbs.find? fun arm => arm.1.toList = casing.toUppercase command).map Prod.snd).getD .unknown

def untagged (rest : String) : Text := rest.toList ++ crlf

def tagged (tag : Text) (rest : String) : Text := tag ++ ' ' :: untagged rest

theorem length_tagged (tag : Text) (rest : String) : (tagged tag rest).length = tag.length + rest.length + 3 := by
  have lineEnd : crlf.length = 2 := rfl
  rw [tagged, untagged, List.length_append, List.length_cons, List.length_append, lineEnd,
    String.length_toList]
  omega

theorem length_untagged (rest : String) : (untagged rest).length = rest.length + 2 := by
  have lineEnd : crlf.length = 2 := rfl
  rw [untagged, List.length_append, lineEnd, String.length_toList]

/-- The password in PLAIN data: what stands behind the first zero byte, or behind the
second one. -/
def plainPassword (decoded : List UInt8) : Option Text :=
  match decoded.dropWhile (· ≠ 0) with
  | [] => none
  | _ :: second =>
    match second.dropWhile (· ≠ 0) with
    | [] => some (Utf8.decodeLossy second)
    | _ :: third => some (Utf8.decodeLossy third)

/-- `append_targets_sent`. -/
def appendTargetsSent (store : MailStore) (mailbox : Text) : Bool :=
  match folderByImapPath store (String.ofList (decodeName mailbox)) with
  | none => false
  | some folder => folder.specialUse = some "\\Sent"

/-- `MAX_APPEND_BYTES`. -/
def maxAppendBytes : Nat := 26214400

/-- The line of `cmd_list` for a folder. -/
def listLine (folder : FolderInfo) : Text :=
  "* LIST (".toList ++ (folder.specialUse.getD "").toList ++ ") \"/\" ".toList ++ listedName folder ++ crlf

/-- The responses of `cmd_select` to the session it has refreshed. -/
def selectResponses (tag : Text) (session : ImapSession) : List Text :=
  let unseen := match session.mails.findIdx? (·.mail.unread) with
    | none => []
    | some index =>
      ["* OK [UNSEEN ".toList ++ Text.decimal (index + 1) ++ untagged "] First unseen"]
  ["* ".toList ++ Text.decimal session.mails.length ++ untagged " EXISTS", untagged "* 0 RECENT",
    untagged "* FLAGS (\\Seen \\Answered \\Flagged \\Deleted \\Draft)",
    untagged "* OK [PERMANENTFLAGS (\\Seen \\Flagged)] Limited",
    untagged "* OK [UIDVALIDITY 1] UIDs valid",
    "* OK [UIDNEXT ".toList ++ Text.decimal session.uidNext ++ untagged "] Predicted next UID"] ++
      unseen ++ [tagged tag "OK [READ-WRITE] SELECT completed"]

/-- A notice of `check_new_mail`. -/
def notice : Response → Text
  | .expunge seq => "* ".toList ++ Text.decimal seq ++ untagged " EXPUNGE"
  | .exist count => "* ".toList ++ Text.decimal count ++ untagged " EXISTS"
  | _ => []

namespace Connection

def inState (connection : Connection) (state : SessionState) : Connection :=
  { connection with session := { connection.session with state := state } }

/-- Whether the bridge has a password and it is another one. -/
def wrongPassword (connection : Connection) (password : Text) : Bool :=
  connection.session.passwordHash.any (· ≠ String.ofList password)

/-- `handle_auth_response`. -/
def handleAuthResponse (line : Text) (connection : Connection) : List Text × Connection :=
  match connection.authTag with
  | none => ([], connection)
  | some tag =>
    let answered := { connection with authTag := none }
    match Base64.decodePadded Base64.standard (Text.trim line) with
    | none => ([tagged tag "NO [AUTHENTICATIONFAILED] Invalid base64"], answered)
    | some decoded =>
      match plainPassword decoded with
      | none => ([tagged tag "NO [AUTHENTICATIONFAILED] Invalid PLAIN data"], answered)
      | some password =>
        if answered.wrongPassword password then
          ([tagged tag "NO [AUTHENTICATIONFAILED] Invalid credentials"], answered)
        else ([tagged tag "OK AUTHENTICATE completed"], answered.inState .authenticated)

/-- `cmd_login`. -/
def cmdLogin (tag args : Text) (connection : Connection) : List Text × Connection :=
  if connection.wrongPassword (parseLoginArgs args).2 then
    ([tagged tag "NO [AUTHENTICATIONFAILED] Invalid credentials"], connection)
  else ([tagged tag "OK LOGIN completed"], connection.inState .authenticated)

/-- The command AUTHENTICATE. -/
def cmdAuthenticate (tag args : Text) (connection : Connection) : List Text × Connection :=
  if Text.eqIgnoreAsciiCase (Text.trim args) "PLAIN".toList then
    ([untagged "+ "], { connection with authTag := some tag })
  else ([tagged tag "NO Unsupported mechanism"], connection)

/-- Whether the arguments of LIST ask for the delimiter only. -/
def asksDelimiter (args : Text) : Bool :=
  Text.trim args = "\"\" \"\"".toList ∨ Text.trim args = []

/-- `cmd_list`. -/
def cmdList (contents : Contents) (tag args : Text) (connection : Connection) : List Text :=
  if connection.session.state = .notAuthenticated then [tagged tag "NO Not authenticated"]
  else if asksDelimiter args then
    [untagged "* LIST (\\Noselect) \"/\" \"\"", tagged tag "OK LIST completed"]
  else contents.store.folderList.map listLine ++ [tagged tag "OK LIST completed"]

/-- `cmd_select`. -/
def cmdSelect (contents : Contents) (tag args : Text) (connection : Connection) : List Text × Connection :=
  if connection.session.state = .notAuthenticated then
    ([tagged tag "NO Not authenticated"], connection)
  else
    match folderByImapPath contents.store (String.ofList (decodeName (selectMailbox args))) with
    | none => ([tagged tag "NO [NONEXISTENT] Mailbox does not exist"], connection)
    | some folder =>
      let session := { connection.session with
        selectedFolder := some folder
        state := .selected }.refreshMails folder.id contents.store
      (selectResponses tag session, { connection with session := session })

/-- `cmd_status`. -/
def cmdStatus (contents : Contents) (tag args : Text) (connection : Connection) : List Text :=
  if connection.session.state = .notAuthenticated then [tagged tag "NO Not authenticated"]
  else
    let stored :=
      match folderByImapPath contents.store (String.ofList (decodeName (statusMailbox args))) with
      | some folder => contents.store.getFolder folder.id
      | none => []
    ["* STATUS \"".toList ++ statusMailbox args ++ "\" (MESSAGES ".toList ++
        Text.decimal stored.length ++ " UNSEEN ".toList ++
        Text.decimal (stored.countP (·.mail.unread)) ++ " RECENT 0 UIDNEXT ".toList ++
        Text.decimal connection.session.uidNext ++ untagged " UIDVALIDITY 1)",
      tagged tag "OK STATUS completed"]

/-- A command on the messages of the selected mailbox. -/
def cmdMessage (contents : Contents) (line : CommandLine) (connection : Connection) :
    List Text × Connection :=
  if connection.session.state ≠ .selected then
    ([tagged line.tag "NO No mailbox selected"], connection)
  else
    let answer := contents.selectedAnswer connection.session line
    (answer.1, { connection with session := { connection.session with mails := answer.2 } })

/-- `cmd_close`. -/
def cmdClose (tag : Text) (connection : Connection) : List Text × Connection :=
  ([tagged tag "OK CLOSE completed"],
    { connection with
      session := { connection.session with
        state := .authenticated
        selectedFolder := none
        mails := [] } })

/-- `handle_command`. -/
def handleCommand (contents : Contents) (line : CommandLine)
    (connection : Connection) : List Text × Connection :=
  match verbOf casing line.command with
  | .capability =>
    ([untagged "* CAPABILITY IMAP4rev1 AUTH=PLAIN IDLE NAMESPACE UIDPLUS MOVE",
      tagged line.tag "OK CAPABILITY completed"], connection)
  | .noop => ([tagged line.tag "OK NOOP completed"], connection)
  | .logout =>
    ([untagged "* BYE TutaBridge signing off", tagged line.tag "OK LOGOUT completed"],
      connection.inState .logout)
  | .login => connection.cmdLogin line.tag line.args
  | .authenticate => connection.cmdAuthenticate line.tag line.args
  | .list => (connection.cmdList contents line.tag line.args, connection)
  | .select => connection.cmdSelect contents line.tag line.args
  | .status => (connection.cmdStatus contents line.tag line.args, connection)
  | .message => connection.cmdMessage contents line
  | .close => connection.cmdClose line.tag
  | .copy => ([tagged line.tag "NO [CANNOT] COPY is not supported; use MOVE"], connection)
  | .idle =>
    ([untagged "+ idling"],
      { connection with
        session := { connection.session with idleTag := some (String.ofList line.tag) } })
  | .namespaces =>
    ([untagged "* NAMESPACE ((\"\" \"/\")) NIL NIL", tagged line.tag "OK NAMESPACE completed"], connection)
  | .unknown => ([tagged line.tag "BAD Unknown command"], connection)

/-! ## The loop -/

/-- `handle_append` up to where it reads the literal. -/
def beginAppend (contents : Contents) (request : AppendRequest) (connection : Connection) :
    List Text × Connection :=
  if ¬ appendTargetsSent contents.store request.mailbox then
    ([tagged request.tag ("NO [CANNOT] APPEND is only supported for the Sent folder; " ++
      "Tuta saves sent mail automatically")], connection)
  else if maxAppendBytes < request.literalSize then
    ([tagged request.tag "NO message too large"], connection)
  else
    ([untagged "+ OK"],
      { connection with
        reading := if request.literalSize = 0 then .tail request [] else .literal request })

/-- The response to an APPEND of a message with an id, or without one. -/
def appendResponse (contents : Contents) (request : AppendRequest) (messageId : Option Text) : Text :=
  match messageId.bind (contents.sentCopyUid request.mailbox) with
  | some uid =>
    request.tag ++ " OK [APPENDUID 1 ".toList ++ Text.decimal uid ++ untagged "] APPEND completed"
  | none => tagged request.tag "OK APPEND completed"

/-- `handle_append` behind the literal and the end of its line. A panic of the parser ends the task. -/
def finishAppend (contents : Contents) (request : AppendRequest)
    (literal : List UInt8) (connection : Connection) : List Text × Connection :=
  match parseRfc2822? casing (Utf8.decodeLossy literal) with
  | some parsed => ([appendResponse contents request parsed.messageId], { connection with reading := .line })
  | none => ([], { connection with reading := .ended })

/-- A line of a client that idles. -/
def handleIdle (tag : String) (line : Text) (connection : Connection) : List Text × Connection :=
  if Text.eqIgnoreAsciiCase line "DONE".toList then
    ([tagged tag.toList "OK IDLE terminated"],
      { connection with session := { connection.session with idleTag := none } })
  else ([], connection)

/-- The end of the loop's body: a session that has logged out ends the loop. -/
def endIfLogout (done : List Text × Connection) : List Text × Connection :=
  if done.2.session.state = .logout then (done.1, { done.2 with reading := .ended }) else done

/-- A line of the client, without the white space at its end. -/
def handleLine (contents : Contents) (line : Text) (connection : Connection) :
    List Text × Connection :=
  match connection.session.idleTag with
  | some tag => connection.handleIdle tag line
  | none =>
    if connection.authTag.isSome then endIfLogout (connection.handleAuthResponse line)
    else
      match parseAppend line with
      | some request => connection.beginAppend contents request
      | none => endIfLogout (connection.handleCommand casing contents (parseCommand line))

/-- The connection goes on to the next moment, with nothing read. -/
def next (connection : Connection) : Connection :=
  { connection with pending := [], moment := connection.moment + 1 }

def finished (connection : Connection) : Connection := { connection with reading := .ended }

/-- The octets read are a line, which must be UTF-8. -/
def endLine (connection : Connection) : List Text × Connection :=
  match Utf8.decode connection.pending with
  | none => ([], connection.next.finished)
  | some line =>
    connection.next.handleLine bridge.casing (bridge.contents connection.moment) (Text.trimEnd line)

/-- The octets read are the end of the line that a literal stood in. -/
def endTail (request : AppendRequest) (literal : List UInt8)
    (connection : Connection) : List Text × Connection :=
  match Utf8.decode connection.pending with
  | none => ([], connection.next.finished)
  | some _ =>
    connection.next.finishAppend bridge.casing (bridge.contents connection.moment) request literal

def push (connection : Connection) (byte : UInt8) : Connection :=
  { connection with pending := connection.pending ++ [byte] }

/-- The line feed. -/
def lineFeed : UInt8 := 0x0A

/-- An octet of the client. -/
def receiveOctet (connection : Connection) (byte : UInt8) : List Text × Connection :=
  match connection.reading with
  | .line =>
    if byte = lineFeed then (connection.push byte).endLine bridge else ([], connection.push byte)
  | .literal request =>
    if request.literalSize ≤ (connection.push byte).pending.length then
      ([], { connection with
        reading := .tail request (connection.push byte).pending
        pending := [] })
    else ([], connection.push byte)
  | .tail request literal =>
    if byte = lineFeed then (connection.push byte).endTail bridge request literal
    else ([], connection.push byte)
  | .ended => ([], connection)

/-- The store has changed, which only a client that idles is told of. The part of a line
that was read by then is lost. -/
def receiveChange (connection : Connection) : List Text × Connection :=
  if connection.reading = .line ∧ connection.session.idleTag.isSome then
    let contents := bridge.contents connection.moment
    let checked := connection.session.checkNewMail contents.store contents.reread
    (checked.1.map notice, { connection.next with session := checked.2 })
  else ([], connection)

/-- The stream ends behind a literal. One that was cut short is not answered. -/
def endLiteral (connection : Connection) : List Text × Connection :=
  match connection.reading with
  | .tail request literal => connection.endTail bridge request literal
  | _ => ([], connection)

/-- The stream ends. What was read of a line is still a line, behind which an empty literal is complete. -/
def receiveEnd (connection : Connection) : List Text × Connection :=
  match connection.reading with
  | .line =>
    if connection.pending = [] then ([], connection.finished)
    else
      let done := connection.endLine bridge
      let last := done.2.endLiteral bridge
      (done.1 ++ last.1, last.2.finished)
  | .literal _ => ([], connection.finished)
  | .tail request literal =>
    let done := connection.endTail bridge request literal
    (done.1, done.2.finished)
  | .ended => ([], connection)

/-- What reaches the loop, with what it writes then. -/
def receive (connection : Connection) : Arrival → List Text × Connection
  | .octet byte => connection.receiveOctet bridge byte
  | .storeChanged => connection.receiveChange bridge
  | .closed => connection.receiveEnd bridge

/-- A connection that was just opened. -/
def opened (passwordHash : Option String) : Connection where
  session :=
    { passwordHash := passwordHash
      state := .notAuthenticated
      selectedFolder := none
      mails := []
      uidNext := 1
      idleTag := none }
  authTag := none
  reading := .line
  pending := []
  moment := 0

end Connection

/-- `run_connection_loop` on what arrives: what it writes, and the connection it leads to. -/
def runConnectionLoop (connection : Connection) (arrivals : List Arrival) :
    List Text × Connection :=
  run (Connection.receive bridge) connection arrivals

/-- Octets as they arrive. -/
def octets (bytes : List UInt8) : List Arrival := bytes.map .octet

section Octets

variable {bridge : Bridge} {connection : Connection} {bytes : List UInt8}

/-- Octets of a line that does not end yet are kept. -/
theorem runConnectionLoop_begun (isLine : connection.reading = .line)
    (unended : Connection.lineFeed ∉ bytes) :
    runConnectionLoop bridge connection (octets bytes) =
      ([], { connection with pending := connection.pending ++ bytes }) := by
  induction bytes generalizing connection with
  | nil => simp [runConnectionLoop, octets, run_nil]
  | cons byte rest ih =>
    obtain ⟨different, absent⟩ := not_or.mp (mt List.mem_cons.mpr unended)
    have kept : connection.receive bridge (.octet byte) = ([], connection.push byte) := by
      rw [Connection.receive, Connection.receiveOctet, isLine]
      exact if_neg (Ne.symm different)
    have later := @ih (connection.push byte) isLine absent
    rw [runConnectionLoop, octets, List.map_cons, run_cons, kept]
    dsimp only
    rw [runConnectionLoop, octets] at later
    rw [later]
    simp [Connection.push]

/-- Octets up to a line feed are a line. -/
theorem runConnectionLoop_line (isLine : connection.reading = .line)
    (fresh : connection.pending = []) (unended : Connection.lineFeed ∉ bytes) :
    runConnectionLoop bridge connection (octets (bytes ++ [Connection.lineFeed])) =
      { connection with pending := bytes ++ [Connection.lineFeed] }.endLine bridge := by
  have begun := @runConnectionLoop_begun bridge connection bytes isLine unended
  rw [runConnectionLoop, octets] at begun
  rw [runConnectionLoop, octets, List.map_append, run_append, begun, List.map_singleton, run_cons,
    run_nil, Connection.receive, Connection.receiveOctet]
  dsimp only
  rw [isLine, fresh]
  simp [Connection.push, Connection.lineFeed]

/-- The octets of a line of text, with the line feed at their end. -/
theorem encode_crlf (line : Text) :
    Utf8.encode (line ++ crlf) = Utf8.encode (line ++ ['\r']) ++ [Connection.lineFeed] := by
  have lastByte : Utf8.encode ['\n'] = [Connection.lineFeed] := by decide
  rw [← lastByte, Utf8.encode, Utf8.encode, Utf8.encode, ← List.flatMap_append, List.append_assoc]
  rfl

theorem lineFeed_not_mem_encode {line : Text} (unended : '\n' ∉ line) :
    Connection.lineFeed ∉ Utf8.encode (line ++ ['\r']) := by
  intro mem
  have inLine := @Utf8.mem_of_mem_encode _ '\n' (by decide) mem
  rcases List.mem_append.mp inLine with earlier | isReturn
  · exact unended earlier
  · exact absurd (List.mem_singleton.mp isReturn) (by decide)

/-- A line of text is handled without the white space at its end. -/
theorem runConnectionLoop_text (isLine : connection.reading = .line)
    (fresh : connection.pending = []) {line : Text} (unended : '\n' ∉ line) :
    runConnectionLoop bridge connection (octets (Utf8.encode (line ++ crlf))) =
      connection.next.handleLine bridge.casing (bridge.contents connection.moment) (Text.trimEnd (line ++ crlf)) := by
  rw [encode_crlf, runConnectionLoop_line isLine fresh (lineFeed_not_mem_encode unended), ← encode_crlf,
    Connection.endLine]
  dsimp only
  rw [Utf8.decode_encode]
  rfl

end Octets

end TutaBridge.Imap
