import TutaBridge.Imap.Connection

/-!
# The authentication gate

A connection gets to the mailbox by a LOGIN or an AUTHENTICATE answer with the bridge's
password. CLOSE puts the session into the authenticated state whatever it was before, so
the gate holds exactly in the runs in which no CLOSE is handled before a password was
accepted.
-/

namespace TutaBridge.Imap

open TutaBridge.Std Tuta Store

/-- The states in which the mailbox is open to the client. -/
def InMailbox (state : SessionState) : Prop := state = .authenticated ∨ state = .selected

namespace Connection

/-- The line that is handled when an arrival completes it. -/
def completes (connection : Connection) : Arrival → Option Text
  | .octet byte =>
    if connection.reading = .line ∧ byte = lineFeed then
      (Utf8.decode (connection.push byte).pending).map Text.trimEnd
    else none
  | .closed =>
    if connection.reading = .line ∧ connection.pending ≠ [] then
      (Utf8.decode connection.pending).map Text.trimEnd
    else none
  | .storeChanged => none

/-- The command that a line is handled as, none for an APPEND and for a line that is no
command in this state. -/
def commandOf (casing : Casing) (connection : Connection) (line : Text) : Option Verb :=
  if connection.session.idleTag.isSome ∨ connection.authTag.isSome ∨ (parseAppend line).isSome then none
  else some (verbOf casing (parseCommand line).command)

theorem commandOf_eq_some {casing : Casing} {connection : Connection} {line : Text} {verb : Verb}
    (isCommand : connection.commandOf casing line = some verb) :
    connection.session.idleTag = none ∧ connection.authTag = none ∧ parseAppend line = none ∧
      verbOf casing (parseCommand line).command = verb := by
  rw [commandOf] at isCommand
  split at isCommand
  · cases isCommand
  next free =>
    obtain ⟨notIdle, notAwaiting, noAppend⟩ : connection.session.idleTag = none ∧
        connection.authTag = none ∧ parseAppend line = none := by simpa using free
    exact ⟨notIdle, notAwaiting, noAppend, Option.some.inj isCommand⟩

/-- The password that a line presents: the one of a LOGIN, or the last field of an answer
to AUTHENTICATE. -/
def presents (casing : Casing) (connection : Connection) (line : Text) : Option Text :=
  if connection.session.idleTag.isSome then none
  else if connection.authTag.isSome then
    (Base64.decodePadded Base64.standard (Text.trim line)).bind plainPassword
  else if connection.commandOf casing line = some .login then
    some (parseLoginArgs (parseCommand line).args).2
  else none

/-- The arrival completes a line that presents the password. -/
def Accepts (casing : Casing) (password : String) (connection : Connection) (arrival : Arrival) :
    Prop :=
  ∃ line ∈ connection.completes arrival, connection.presents casing line = some password.toList

/-- The arrival completes a CLOSE. -/
def HandlesClose (casing : Casing) (connection : Connection) (arrival : Arrival) : Prop :=
  ∃ line ∈ connection.completes arrival, connection.commandOf casing line = some .close

/-- What every connection of a bridge with the password keeps: the password, and that the
loop ends with LOGOUT. -/
structure Serves (password : String) (connection : Connection) : Prop where
  passwordHash : connection.session.passwordHash = some password
  loggedOut : connection.session.state = .logout → connection.reading = .ended

/-! ## What a line does to the state -/

section State

variable {casing : Casing} {contents : Contents} {connection : Connection}

/-- The session states a line can lead to: the same, or another by one of the commands that
change it. -/
inductive StateMove (casing : Casing) (connection : Connection) (line : Text) :
    SessionState → Prop where
  | same : StateMove casing connection line connection.session.state
  | logout : StateMove casing connection line .logout
  | accepted {password : Text} (presented : connection.presents casing line = some password)
      (right : connection.wrongPassword password = false) :
      StateMove casing connection line .authenticated
  | selected (opened : connection.session.state ≠ .notAuthenticated) :
      StateMove casing connection line .selected
  | closed (isClose : connection.commandOf casing line = some .close) :
      StateMove casing connection line .authenticated

theorem endIfLogout_session (done : List Text × Connection) : (endIfLogout done).2.session = done.2.session := by
  unfold endIfLogout
  split <;> rfl

theorem stateMove_handleAuthResponse {line : Text} (notIdle : connection.session.idleTag = none)
    (awaiting : connection.authTag.isSome = true) :
    StateMove casing connection line (connection.handleAuthResponse line).2.session.state := by
  unfold handleAuthResponse
  split
  · exact .same
  · dsimp only
    split
    · exact .same
    next decoded isDecoded =>
      split
      · exact .same
      next password isPassword =>
        split
        · exact .same
        next right =>
          have presented : connection.presents casing line = some password := by
            rw [presents, if_neg (by simp [notIdle]), if_pos awaiting, isDecoded, Option.bind_some,
              isPassword]
          exact .accepted presented (Bool.eq_false_of_not_eq_true right)

theorem stateMove_handleCommand {line : Text} (isCommand : connection.commandOf casing line =
      some (verbOf casing (parseCommand line).command))
    (notIdle : connection.session.idleTag = none) (notAwaiting : connection.authTag = none) :
    StateMove casing connection line
      (connection.handleCommand casing contents (parseCommand line)).2.session.state := by
  unfold handleCommand
  cases verb : verbOf casing (parseCommand line).command with
  | logout => exact .logout
  | login =>
    dsimp only
    rw [cmdLogin]
    split
    · exact .same
    next right =>
      have presented : connection.presents casing line =
          some (parseLoginArgs (parseCommand line).args).2 := by
        rw [presents, if_neg (by simp [notIdle]), if_neg (by simp [notAwaiting]),
          if_pos (by rw [isCommand, verb])]
      exact .accepted presented (Bool.eq_false_of_not_eq_true right)
  | authenticate =>
    dsimp only
    rw [cmdAuthenticate]
    split <;> exact .same
  | select =>
    dsimp only
    rw [cmdSelect]
    split
    · exact .same
    next opened =>
      split
      · exact .same
      · exact .selected opened
  | message =>
    dsimp only
    rw [cmdMessage]
    split <;> exact .same
  | close => exact .closed (by rw [isCommand, verb])
  | capability | noop | list | status | copy | idle | namespaces | unknown => exact .same

theorem handleIdle_state (tag : String) (line : Text) :
    (connection.handleIdle tag line).2.session.state = connection.session.state := by
  rw [handleIdle]
  split <;> rfl

theorem beginAppend_session (request : AppendRequest) :
    (connection.beginAppend contents request).2.session = connection.session := by
  rw [beginAppend]
  split
  · rfl
  · split <;> rfl

theorem stateMove_handleLine (line : Text) : StateMove casing connection line
      (connection.handleLine casing contents line).2.session.state := by
  unfold handleLine
  split
  next tag isIdle =>
    rw [handleIdle_state]
    exact .same
  next notIdle =>
    split
    next awaiting =>
      rw [endIfLogout_session]
      exact stateMove_handleAuthResponse notIdle awaiting
    next notAwaiting =>
      split
      next request isAppend =>
        rw [beginAppend_session]
        exact .same
      next noAppend =>
        have none' : connection.authTag = none := by simpa using notAwaiting
        rw [endIfLogout_session]
        refine stateMove_handleCommand ?_ notIdle none'
        rw [commandOf, if_neg (by simp [notIdle, none', noAppend])]

/-- No line changes the bridge's password. -/
theorem passwordHash_handleLine (line : Text) : (connection.handleLine casing contents line).2.session.passwordHash =
      connection.session.passwordHash := by
  unfold handleLine
  split
  · rw [handleIdle]
    split <;> rfl
  · split
    · rw [endIfLogout_session]
      unfold handleAuthResponse
      split
      · rfl
      · dsimp only
        split
        · rfl
        · split
          · rfl
          · split <;> rfl
    · split
      · rw [beginAppend_session]
      · rw [endIfLogout_session]
        unfold handleCommand
        split <;> first | rfl | skip
        · rw [cmdLogin]
          split <;> rfl
        · rw [cmdAuthenticate]
          split <;> rfl
        · rw [cmdSelect]
          split
          · rfl
          · split <;> rfl
        · rw [cmdMessage]
          split <;> rfl

/-- A command leaves what is read, and how, as it is. -/
theorem handleCommand_frame (command : CommandLine) :
    (connection.handleCommand casing contents command).2.reading = connection.reading ∧
      (connection.handleCommand casing contents command).2.pending = connection.pending := by
  unfold handleCommand
  cases verbOf casing command.command with
  | login =>
    dsimp only
    rw [cmdLogin]
    split <;> exact ⟨rfl, rfl⟩
  | authenticate =>
    dsimp only
    rw [cmdAuthenticate]
    split <;> exact ⟨rfl, rfl⟩
  | select =>
    dsimp only
    rw [cmdSelect]
    split
    · exact ⟨rfl, rfl⟩
    · split <;> exact ⟨rfl, rfl⟩
  | message =>
    dsimp only
    rw [cmdMessage]
    split <;> exact ⟨rfl, rfl⟩
  | capability | noop | logout | list | status | close | copy | idle | namespaces | unknown =>
    exact ⟨rfl, rfl⟩

theorem endIfLogout_loggedOut {done : List Text × Connection}
    (out : (endIfLogout done).2.session.state = .logout) : (endIfLogout done).2.reading = .ended := by
  rw [endIfLogout_session] at out
  rw [endIfLogout, if_pos out]

/-- A line that logs out ends the loop. -/
theorem handleLine_loggedOut (line : Text) (live : connection.session.state ≠ .logout)
    (out : (connection.handleLine casing contents line).2.session.state = .logout) :
    (connection.handleLine casing contents line).2.reading = .ended := by
  unfold handleLine at out ⊢
  split at out
  · rw [handleIdle_state] at out
    exact absurd out live
  · split at out
    next awaiting =>
      rw [if_pos awaiting]
      exact endIfLogout_loggedOut out
    next notAwaiting =>
      rw [if_neg notAwaiting]
      split at out
      · rw [beginAppend_session] at out
        exact absurd out live
      · exact endIfLogout_loggedOut out

end State

/-! ## What an arrival does -/

section Receive

variable {bridge : Bridge} {connection : Connection} {arrival : Arrival} {password : String}

theorem endLine_eq {line : Text} (decoded : Utf8.decode connection.pending = some line) : connection.endLine bridge =
      connection.next.handleLine bridge.casing (bridge.contents connection.moment) (Text.trimEnd line) := by
  rw [endLine, decoded]

theorem endTail_session (request : AppendRequest) (literal : List UInt8) :
    (connection.endTail bridge request literal).2.session = connection.session := by
  rw [endTail]
  split
  · rfl
  · rw [finishAppend]
    split <;> rfl

theorem endLiteral_session : (connection.endLiteral bridge).2.session = connection.session := by
  rw [endLiteral]
  split
  · exact endTail_session _ _
  · rfl

/-- The end of the stream behind a line: a literal that is complete is answered, and the loop ends. -/
def closing (bridge : Bridge) (done : List Text × Connection) : List Text × Connection :=
  (done.1 ++ (done.2.endLiteral bridge).1, (done.2.endLiteral bridge).2.finished)

/-- A connection that reads no literal has none to end. -/
theorem closing_of_readsLines {done : List Text × Connection}
    (readsLines : done.2.reading = .line ∨ done.2.reading = .ended) :
    closing bridge done = (done.1, done.2.finished) := by
  have nothing : done.2.endLiteral bridge = ([], done.2) := by
    rcases readsLines with isLine | ended
    · rw [endLiteral, isLine]
    · rw [endLiteral, ended]
  rw [closing, nothing, List.append_nil]

/-- An arrival that completes a line handles it, on any bridge; the end of the stream then
ends the loop. -/
theorem receive_completed {line : Text} (completed : connection.completes arrival = some line) :
    connection.reading = .line ∧ ((∀ bridge : Bridge, connection.receive bridge arrival =
          connection.next.handleLine bridge.casing (bridge.contents connection.moment) line) ∨
        ∀ bridge : Bridge, connection.receive bridge arrival = closing bridge
          (connection.next.handleLine bridge.casing (bridge.contents connection.moment) line)) := by
  cases arrival with
  | octet byte =>
    rw [completes] at completed
    split at completed
    next isLine =>
      obtain ⟨raw, decoded, rfl⟩ := Option.map_eq_some_iff.mp completed
      refine ⟨isLine.1, .inl fun bridge => ?_⟩
      have received : connection.receive bridge (.octet byte) = (connection.push byte).endLine bridge := by
        rw [receive, receiveOctet, isLine.1]
        exact if_pos isLine.2
      rw [received, endLine_eq decoded]
      rfl
    · cases completed
  | storeChanged => cases completed
  | closed =>
    rw [completes] at completed
    split at completed
    next isLine =>
      obtain ⟨raw, decoded, rfl⟩ := Option.map_eq_some_iff.mp completed
      refine ⟨isLine.1, .inr fun bridge => ?_⟩
      have received : connection.receive bridge .closed = closing bridge (connection.endLine bridge) := by
        rw [receive, receiveEnd, isLine.1]
        dsimp only
        rw [if_neg isLine.2, closing]
      rw [received, endLine_eq decoded]
    · cases completed

theorem receive_of_completes {line : Text} (completed : connection.completes arrival = some line) :
    connection.reading = .line ∧ (connection.receive bridge arrival).2.session =
        (connection.next.handleLine bridge.casing (bridge.contents connection.moment) line).2.session ∧
      ((connection.next.handleLine bridge.casing (bridge.contents connection.moment) line).2.reading =
        .ended → (connection.receive bridge arrival).2.reading = .ended) := by
  obtain ⟨isLine, goesOn | stops⟩ := receive_completed completed
  · rw [goesOn bridge]
    exact ⟨isLine, rfl, id⟩
  · rw [stops bridge]
    exact ⟨isLine, endLiteral_session, fun _ => rfl⟩

theorem checkNewMail_state (read reread : MailStore) (session : ImapSession) :
    (session.checkNewMail read reread).2.state = session.state ∧
      (session.checkNewMail read reread).2.passwordHash = session.passwordHash := by
  unfold ImapSession.checkNewMail
  split
  · exact ⟨rfl, rfl⟩
  · dsimp only
    split <;> exact ⟨rfl, rfl⟩

theorem endLine_session_of_invalid (invalid : Utf8.decode connection.pending = none) :
    (connection.endLine bridge).2.session = connection.session := by
  rw [endLine, invalid]
  rfl

/-- An octet that completes no line leaves the session as it is. -/
theorem receiveOctet_session {byte : UInt8} (incomplete : connection.completes (.octet byte) = none) :
    (connection.receiveOctet bridge byte).2.session = connection.session := by
  unfold receiveOctet
  split
  next isLine =>
    split
    next isLineFeed =>
      rw [completes, if_pos ⟨isLine, isLineFeed⟩, Option.map_eq_none_iff] at incomplete
      exact endLine_session_of_invalid incomplete
    · rfl
  · split <;> rfl
  · split
    · exact endTail_session _ _
    · rfl
  · rfl

/-- The end of the stream leaves the session as it is, if no line was begun. -/
theorem receiveEnd_session (incomplete : connection.completes .closed = none) :
    (connection.receiveEnd bridge).2.session = connection.session := by
  unfold receiveEnd
  split
  next isLine =>
    split
    · rfl
    next begun =>
      rw [completes, if_pos ⟨isLine, begun⟩, Option.map_eq_none_iff] at incomplete
      exact endLiteral_session.trans (endLine_session_of_invalid incomplete)
  · rfl
  · exact endTail_session _ _
  · rfl

/-- An arrival that completes no line leaves state and password as they are. -/
theorem receive_of_not_completes (incomplete : connection.completes arrival = none) :
    (connection.receive bridge arrival).2.session.state = connection.session.state ∧
      (connection.receive bridge arrival).2.session.passwordHash = connection.session.passwordHash := by
  cases arrival with
  | octet byte =>
    have same := @receiveOctet_session bridge connection byte incomplete
    exact ⟨congrArg _ same, congrArg _ same⟩
  | storeChanged =>
    show (connection.receiveChange bridge).2.session.state = _ ∧ _
    rw [receive, receiveChange]
    split
    · exact checkNewMail_state _ _ _
    · exact ⟨rfl, rfl⟩
  | closed =>
    have same := @receiveEnd_session bridge connection incomplete
    exact ⟨congrArg _ same, congrArg _ same⟩

/-- A loop that has ended hears nothing. -/
theorem receive_ended (ended : connection.reading = .ended) (arrival : Arrival) :
    connection.receive bridge arrival = ([], connection) := by
  cases arrival with
  | octet byte => rw [receive, receiveOctet, ended]
  | storeChanged =>
    rw [receive, receiveChange, ended]
    exact if_neg fun both => Reading.noConfusion both.1
  | closed => rw [receive, receiveEnd, ended]

theorem serves_receive (serves : connection.Serves password) (arrival : Arrival) :
    (connection.receive bridge arrival).2.Serves password := by
  cases completed : connection.completes arrival with
  | none =>
    obtain ⟨sameState, samePassword⟩ := @receive_of_not_completes bridge connection arrival completed
    refine ⟨samePassword.trans serves.passwordHash, fun out => ?_⟩
    have ended := serves.loggedOut (sameState.symm.trans out)
    rw [receive_ended ended]
    exact ended
  | some line =>
    obtain ⟨isLine, sameSession, endsToo⟩ := @receive_of_completes bridge connection arrival line completed
    have live : connection.session.state ≠ .logout := fun out => by
      have := serves.loggedOut out
      rw [isLine] at this
      cases this
    refine ⟨?_, fun out => endsToo (handleLine_loggedOut line live (sameSession ▸ out))⟩
    rw [sameSession, passwordHash_handleLine]
    exact serves.passwordHash

/-- A CLOSE opens the mailbox in any state. -/
theorem handleLine_close {contents : Contents} {line : Text}
    (isClose : connection.commandOf bridge.casing line = some .close) :
    (connection.handleLine bridge.casing contents line).2.session.state = .authenticated := by
  obtain ⟨notIdle, notAwaiting, noAppend, verb⟩ := commandOf_eq_some isClose
  rw [handleLine, notIdle]
  dsimp only
  rw [if_neg (by simp [notAwaiting]), noAppend]
  dsimp only
  rw [endIfLogout_session, handleCommand, verb]
  rfl

/-- A CLOSE presents no password. -/
theorem presents_close {line : Text} (isClose : connection.commandOf bridge.casing line = some .close) :
    connection.presents bridge.casing line = none := by
  obtain ⟨notIdle, notAwaiting, -⟩ := commandOf_eq_some isClose
  rw [presents, if_neg (by simp [notIdle]), if_neg (by simp [notAwaiting]), isClose]
  exact if_neg (by decide)

/-- What one arrival does to the gate: the mailbox opens by the password, or by a CLOSE. -/
theorem receive_opens_iff (serves : connection.Serves password) {authorized : Prop}
    (guarded : InMailbox connection.session.state → authorized) (arrival : Arrival) :
    (InMailbox (connection.receive bridge arrival).2.session.state →
        authorized ∨ connection.Accepts bridge.casing password arrival) ↔
      (connection.HandlesClose bridge.casing arrival → authorized) := by
  cases completed : connection.completes arrival with
  | none =>
    rw [(receive_of_not_completes completed).1]
    refine ⟨?_, fun _ inMailbox => .inl (guarded inMailbox)⟩
    rintro - ⟨line, isLine, -⟩
    rw [completed] at isLine
    cases isLine
  | some line =>
    obtain ⟨isLine, sameSession, -⟩ := @receive_of_completes bridge connection arrival line completed
    rw [sameSession]
    constructor
    · rintro opens ⟨other, same, isClose⟩
      obtain rfl := Option.some.inj (completed.symm.trans same)
      rcases opens (.inl (handleLine_close isClose)) with before | ⟨other, same, presented⟩
      · exact before
      · obtain rfl := Option.some.inj (completed.symm.trans same)
        rw [presents_close isClose] at presented
        cases presented
    · intro closeLate inMailbox
      have move := @stateMove_handleLine bridge.casing (bridge.contents connection.moment)
        connection.next line
      generalize isState : (connection.next.handleLine bridge.casing
        (bridge.contents connection.moment) line).2.session.state = state at move inMailbox
      cases move with
      | same => exact .inl (guarded inMailbox)
      | logout => rcases inMailbox with impossible | impossible <;> cases impossible
      | accepted presented right =>
        refine .inr ⟨line, completed, presented.trans ?_⟩
        rw [wrongPassword, next, serves.passwordHash, Option.any_some, decide_eq_false_iff_not,
          not_not] at right
        rw [right, String.toList_ofList]
      | selected opened =>
        refine .inl (guarded ?_)
        cases isBefore : connection.session.state with
        | notAuthenticated => exact absurd isBefore opened
        | authenticated => exact .inl rfl
        | selected => exact .inr rfl
        | logout =>
          have ended := serves.loggedOut isBefore
          rw [isLine] at ended
          cases ended
      | closed isClose => exact .inl (closeLate ⟨line, completed, isClose⟩)

end Receive

end Connection

/-! ## Runs -/

section Runs

variable (bridge : Bridge) (password : String) (start : Connection)

/-- Some line before has presented the password. -/
def Authorized (arrivals : List Arrival) : Prop :=
  ∃ before arrival later, arrivals = before ++ arrival :: later ∧
    (runConnectionLoop bridge start before).2.Accepts bridge.casing password arrival

/-- All along what arrives, the mailbox is open only after the password was presented. -/
def GateHolds (arrivals : List Arrival) : Prop :=
  ∀ before, before <+: arrivals → InMailbox (runConnectionLoop bridge start before).2.session.state →
      Authorized bridge password start before

/-- No CLOSE is handled before the password was presented. -/
def NoEarlyClose (arrivals : List Arrival) : Prop :=
  ∀ before arrival later, arrivals = before ++ arrival :: later →
    (runConnectionLoop bridge start before).2.HandlesClose bridge.casing arrival →
      Authorized bridge password start before

end Runs

section Concat

variable {bridge : Bridge} {password : String} {start : Connection} {arrivals : List Arrival}
  {last : Arrival}

theorem runConnectionLoop_concat : (runConnectionLoop bridge start (arrivals ++ [last])).2 =
      ((runConnectionLoop bridge start arrivals).2.receive bridge last).2 := by
  rw [runConnectionLoop, run_concat]
  rfl

theorem authorized_concat : Authorized bridge password start (arrivals ++ [last]) ↔
      Authorized bridge password start arrivals ∨
        (runConnectionLoop bridge start arrivals).2.Accepts bridge.casing password last := by
  constructor
  · rintro ⟨before, arrival, later, same, accepts⟩
    rcases concat_eq_append_cons same with ⟨rfl, rfl, rfl⟩ | ⟨rest, rfl, rfl⟩
    · exact .inr accepts
    · exact .inl ⟨before, arrival, rest, rfl, accepts⟩
  · rintro (⟨before, arrival, later, rfl, accepts⟩ | accepts)
    · exact ⟨before, arrival, later ++ [last], by simp, accepts⟩
    · exact ⟨arrivals, last, [], rfl, accepts⟩

theorem gateHolds_concat : GateHolds bridge password start (arrivals ++ [last]) ↔
      GateHolds bridge password start arrivals ∧
        (InMailbox (runConnectionLoop bridge start (arrivals ++ [last])).2.session.state →
          Authorized bridge password start (arrivals ++ [last])) := by
  constructor
  · intro holds
    exact ⟨fun before isPrefix => holds before (isPrefix.trans (List.prefix_append _ _)),
      holds _ List.prefix_rfl⟩
  · rintro ⟨holds, atLast⟩ before isPrefix
    rcases List.prefix_concat_iff.mp isPrefix with rfl | earlier
    · exact atLast
    · exact holds before earlier

theorem noEarlyClose_concat : NoEarlyClose bridge password start (arrivals ++ [last]) ↔
      NoEarlyClose bridge password start arrivals ∧
        ((runConnectionLoop bridge start arrivals).2.HandlesClose bridge.casing last →
          Authorized bridge password start arrivals) := by
  constructor
  · intro late
    refine ⟨?_, late arrivals last [] rfl⟩
    rintro before arrival later rfl
    exact late before arrival (later ++ [last]) (by simp)
  · rintro ⟨late, atLast⟩ before arrival later same
    rcases concat_eq_append_cons same with ⟨rfl, rfl, rfl⟩ | ⟨rest, rfl, rfl⟩
    · exact atLast
    · exact late before arrival rest rfl

theorem serves_runConnectionLoop (serves : start.Serves password) (arrivals : List Arrival) :
    (runConnectionLoop bridge start arrivals).2.Serves password :=
  run_invariant (Connection.Serves password)
    (fun _ arrival serves => Connection.serves_receive serves arrival) serves arrivals

/-- The gate holds in a run exactly when no CLOSE is handled in it before the password was
presented. -/
theorem gateHolds_iff_noEarlyClose (serves : start.Serves password)
    (shut : ¬ InMailbox start.session.state) (arrivals : List Arrival) :
    GateHolds bridge password start arrivals ↔ NoEarlyClose bridge password start arrivals := by
  induction arrivals using List.reverseRecOn with
  | nil =>
    constructor
    · rintro - before arrival later same
      simp at same
    · intro _ before isPrefix inMailbox
      rw [List.prefix_nil.mp isPrefix] at inMailbox
      exact absurd inMailbox shut
  | append_singleton arrivals last ih =>
    rw [gateHolds_concat, noEarlyClose_concat, ← ih, runConnectionLoop_concat, authorized_concat]
    refine and_congr_right fun holds => ?_
    exact Connection.receive_opens_iff (serves_runConnectionLoop serves arrivals)
      (holds arrivals List.prefix_rfl) last

end Concat

/-! ## The right password -/

/-- A line that a client may send: without the characters that end one. -/
def OneLine (text : Text) : Prop := '\r' ∉ text ∧ '\n' ∉ text

/-- A LOGIN with user and password as quoted strings. -/
def loginLine (tag user password : Text) : Text :=
  tag ++ ' ' :: ("LOGIN".toList ++ ' ' :: (quoted user ++ ' ' :: quoted password))

theorem lineFeed_not_mem_quoted {text : Text} (absent : '\n' ∉ text) : '\n' ∉ quoted text := by
  intro mem
  rw [quoted, List.mem_cons, List.mem_append, List.mem_singleton, List.mem_flatMap] at mem
  rcases mem with isQuote | ⟨char, inText, escaped⟩ | isQuote
  · cases isQuote
  · rw [escapeChar] at escaped
    split at escaped
    · rw [List.mem_cons, List.mem_singleton] at escaped
      rcases escaped with isBackslash | rfl
      · cases isBackslash
      · exact absent inText
    · rw [List.mem_singleton.mp escaped] at absent
      exact absent inText
  · cases isQuote

/-- The session reads user and password from the quoted strings. -/
theorem parseLoginArgs_quoted (user password : Text) :
    parseLoginArgs (quoted user ++ ' ' :: quoted password) = (user, password) := by
  have ended := trimEnd_quoted password [' '] []
  rw [List.append_nil, List.singleton_append] at ended
  have trimmed : Text.trim (quoted user ++ ' ' :: quoted password) =
      quoted user ++ ' ' :: quoted password := by
    rw [trim_quoted, ended, Text.trimEnd, List.rdropWhile_nil, List.append_nil, List.singleton_append]
  have started : Text.trimStart (' ' :: quoted password) = quoted password := by
    rw [Text.trimStart, List.dropWhile_cons_of_pos (by decide)]
    exact List.dropWhile_cons_of_neg (by decide)
  have second := parseImapToken_quoted password []
  rw [List.append_nil] at second
  rw [parseLoginArgs, trimmed, parseImapToken_quoted]
  dsimp only
  rw [started, second]

section Login

variable {bridge : Bridge} {connection : Connection} {tag user password : Text}

theorem parseCommand_loginLine (tagSolid : ' ' ∉ tag) : parseCommand (loginLine tag user password) =
      ⟨tag, "LOGIN".toList, quoted user ++ ' ' :: quoted password⟩ :=
  parseCommand_args _ tagSolid (by decide)

theorem trimEnd_loginLine : Text.trimEnd (loginLine tag user password ++ crlf) = loginLine tag user password := by
  have regroup : ∀ ending : Text, loginLine tag user password ++ ending =
      tag ++ ' ' :: ("LOGIN".toList ++ ' ' :: (quoted user ++ [' '])) ++ (quoted password ++ ending) := by
    simp [loginLine]
  have ended : Text.trimEnd crlf = [] := by decide
  rw [regroup, trimEnd_quoted, ended, ← regroup, List.append_nil]

/-- A connection that waits for a command. -/
structure Connection.Waiting (connection : Connection) : Prop where
  isLine : connection.reading = .line
  fresh : connection.pending = []
  notIdle : connection.session.idleTag = none
  notAwaiting : connection.authTag = none

theorem lineFeed_not_mem_loginLine (tagLine : OneLine tag) (userLine : OneLine user)
    (passwordLine : OneLine password) : '\n' ∉ loginLine tag user password := by
  have noneIn : ∀ text : Text, (text.all fun char => char ≠ '\n') = true → '\n' ∉ text := by
    intro text none' mem
    simpa using List.all_eq_true.mp none' _ mem
  simp only [loginLine, List.mem_append, List.mem_cons, not_or]
  exact ⟨tagLine.2, by decide, noneIn _ (by decide), by decide, lineFeed_not_mem_quoted userLine.2,
    by decide, lineFeed_not_mem_quoted passwordLine.2⟩

theorem runConnectionLoop_login (waiting : connection.Waiting)
    (tagSolid : ' ' ∉ tag) (tagLine : OneLine tag) (userLine : OneLine user) (passwordLine : OneLine password) :
    runConnectionLoop bridge connection (octets (Utf8.encode (loginLine tag user password ++ crlf))) =
      Connection.endIfLogout (connection.next.cmdLogin tag (quoted user ++ ' ' :: quoted password)) := by
  have parsed := @parseCommand_loginLine tag user password tagSolid
  have noAppendName : Text.eqIgnoreAsciiCase "LOGIN".toList "APPEND".toList = false := by decide
  have noAppend : parseAppend (loginLine tag user password) = none :=
    parseAppend_eq_none (by rw [parsed]; exact noAppendName)
  have verb : verbOf bridge.casing "LOGIN".toList = .login := by
    rw [verbOf, toUppercase_command (by decide)]
    decide
  have idle : connection.next.session.idleTag = none := waiting.notIdle
  have awaiting : connection.next.authTag = none := waiting.notAwaiting
  rw [runConnectionLoop_text waiting.isLine waiting.fresh
    (lineFeed_not_mem_loginLine tagLine userLine passwordLine), trimEnd_loginLine,
    Connection.handleLine, idle]
  dsimp only
  rw [if_neg (by simp [awaiting]), noAppend]
  dsimp only
  rw [parsed, Connection.handleCommand]
  dsimp only
  rw [verb]

/-- A LOGIN with quoted strings is accepted exactly when the password is the bridge's. -/
theorem login_accepted_iff (waiting : connection.Waiting) {expected : String}
    (serves : connection.Serves expected)
    (tagSolid : ' ' ∉ tag) (tagLine : OneLine tag) (userLine : OneLine user)
    (passwordLine : OneLine password) :
    (runConnectionLoop bridge connection (octets (Utf8.encode (loginLine tag user password ++ crlf)))).1 =
          [tagged tag "OK LOGIN completed"] ∧
      (runConnectionLoop bridge connection
        (octets (Utf8.encode (loginLine tag user password ++ crlf)))).2.session.state = .authenticated ↔
      String.ofList password = expected := by
  have hash : connection.next.session.passwordHash = some expected := serves.passwordHash
  have wrongIff : connection.next.wrongPassword password = true ↔ String.ofList password ≠ expected := by
    rw [Connection.wrongPassword, hash, Option.any_some, decide_eq_true_iff]
    exact ne_comm
  rw [runConnectionLoop_login waiting tagSolid tagLine userLine passwordLine, Connection.cmdLogin,
    parseLoginArgs_quoted]
  by_cases right : String.ofList password = expected
  · rw [if_neg (fun wrong => wrongIff.mp wrong right)]
    exact ⟨fun _ => right, fun _ => ⟨rfl, rfl⟩⟩
  · rw [if_pos (wrongIff.mpr right)]
    refine ⟨fun accepted => ?_, fun same => absurd same right⟩
    have live : connection.next.session.state ≠ .logout := fun out => by
      have ended := serves.loggedOut out
      rw [waiting.isLine] at ended
      cases ended
    rw [Connection.endIfLogout, if_neg live] at accepted
    have sameText := List.cons.inj accepted.1
    have sameRest := List.append_cancel_left sameText.1
    exact absurd sameRest (by decide)

end Login

theorem opened_serves (password : String) : (Connection.opened (some password)).Serves password where
  passwordHash := rfl
  loggedOut out := SessionState.noConfusion out

/-- A connection opens the mailbox only after the bridge's password was presented, exactly
when it handles no CLOSE before; and a LOGIN with quoted strings is accepted exactly when
its password is the bridge's. -/
theorem authentication_gate (bridge : Bridge) (password : String) :
    (∀ arrivals, GateHolds bridge password (.opened (some password)) arrivals ↔
      NoEarlyClose bridge password (.opened (some password)) arrivals) ∧
    ∀ connection : Connection, connection.Waiting → connection.Serves password →
      ∀ tag user given, ' ' ∉ tag → OneLine tag → OneLine user → OneLine given →
        ((runConnectionLoop bridge connection (octets (Utf8.encode (loginLine tag user given ++ crlf)))).1 =
              [tagged tag "OK LOGIN completed"] ∧
          (runConnectionLoop bridge connection
            (octets (Utf8.encode (loginLine tag user given ++ crlf)))).2.session.state = .authenticated ↔
          String.ofList given = password) := by
  constructor
  · refine gateHolds_iff_noEarlyClose (opened_serves password) ?_
    rintro (impossible | impossible) <;> cases impossible
  · intro connection waiting serves tag user given tagSolid tagLine userLine givenLine
    exact login_accepted_iff waiting serves tagSolid tagLine userLine givenLine

/-- A bridge of one content at all moments. -/
def Bridge.fixed (contents : Contents) : Bridge := ⟨.ascii, fun _ => contents⟩

/-- Contents without folders and messages. -/
def Contents.empty : Contents where
  store := .new
  reread := .new
  sentCopyUid _ _ := none
  selectedAnswer _ _ := ([], [])

/-- A password with a quote in it is accepted. -/
theorem authentication_gate_quoted : (runConnectionLoop (.fixed .empty) (.opened (some "se\"cret"))
        (octets (Utf8.encode (loginLine "a".toList "me".toList "se\"cret".toList ++ crlf)))).1 =
          [tagged "a".toList "OK LOGIN completed"] ∧
      (runConnectionLoop (.fixed .empty) (.opened (some "se\"cret"))
        (octets (Utf8.encode (loginLine "a".toList "me".toList "se\"cret".toList ++ crlf)))
          ).2.session.state = .authenticated :=
  ((authentication_gate (.fixed .empty) "se\"cret").2 _ ⟨rfl, rfl, rfl, rfl⟩ (opened_serves _) _ _ _
    (by decide) ⟨by decide, by decide⟩ ⟨by decide, by decide⟩ ⟨by decide, by decide⟩).mpr (by decide)

/-- Octets that end no line present no password. -/
theorem not_authorized_octets {bridge : Bridge} {password : String} {start : Connection}
    {bytes : List UInt8} (unended : Connection.lineFeed ∉ bytes) :
    ¬ Authorized bridge password start (octets bytes) := by
  rintro ⟨before, arrival, later, same, line, completed, -⟩
  have mem : arrival ∈ octets bytes := by
    rw [same]
    simp
  obtain ⟨byte, inBytes, rfl⟩ := List.mem_map.mp mem
  rw [Connection.completes] at completed
  split at completed
  next ends => exact unended (ends.2 ▸ inBytes)
  next => cases completed

/-- A CLOSE alone opens the mailbox, without any password. -/
theorem close_opens_mailbox : ¬ GateHolds (.fixed .empty) "secret" (.opened (some "secret"))
      (octets (Utf8.encode ("a CLOSE".toList ++ crlf))) := by
  have unended : Connection.lineFeed ∉ Utf8.encode ("a CLOSE".toList ++ ['\r']) := by decide
  have split : octets (Utf8.encode ("a CLOSE".toList ++ crlf)) =
      octets (Utf8.encode ("a CLOSE".toList ++ ['\r'])) ++ [.octet Connection.lineFeed] := by decide
  rw [gateHolds_iff_noEarlyClose (opened_serves "secret")
    (by rintro (impossible | impossible) <;> cases impossible), split]
  intro late
  refine not_authorized_octets unended (late _ _ [] rfl ⟨"a CLOSE".toList, ?_, ?_⟩)
  · rw [runConnectionLoop_begun rfl unended]
    decide +kernel
  · rw [runConnectionLoop_begun rfl unended]
    decide +kernel

end TutaBridge.Imap
