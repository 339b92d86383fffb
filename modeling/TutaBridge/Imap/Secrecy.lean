import TutaBridge.Imap.Gate

/-!
# What a connection tells before login

Two bridges with one password write the same to a client that has not logged in, as long
as no line asks for the contents: an APPEND, which is answered before any check of the
session's state, or a LIST, SELECT or STATUS behind a CLOSE.
-/

namespace TutaBridge.Imap

open TutaBridge.Std Tuta Store Events

namespace Connection

/-- A line that is answered from the bridge's contents without a selected mailbox. -/
def Reveals (casing : Casing) (connection : Connection) (line : Text) : Prop :=
  connection.session.idleTag = none ∧ connection.authTag = none ∧ ((parseAppend line).isSome ∨
      connection.session.state ≠ .notAuthenticated ∧
        (connection.commandOf casing line = some .list ∧ ¬ asksDelimiter (parseCommand line).args ∨
          connection.commandOf casing line = some .select ∨
          connection.commandOf casing line = some .status))

/-- The arrival completes such a line. -/
def Discloses (casing : Casing) (connection : Connection) (arrival : Arrival) : Prop :=
  ∃ line ∈ connection.completes arrival, connection.Reveals casing line

/-- A connection that reads lines, without a selected mailbox. -/
structure Shut (connection : Connection) : Prop where
  notSelected : connection.session.state ≠ .selected
  noFolder : connection.session.selectedFolder = none
  readsLines : connection.reading = .line ∨ connection.reading = .ended

/-! ## Lines that reveal nothing -/

section Quiet

variable {casing : Casing} {contents other : Contents} {connection : Connection} {line : Text}

theorem reveals_of_commandOf (notIdle : connection.session.idleTag = none)
    (notAwaiting : connection.authTag = none) (opened : connection.session.state ≠ .notAuthenticated)
    (asks : connection.commandOf casing line = some .list ∧ ¬ asksDelimiter (parseCommand line).args ∨
      connection.commandOf casing line = some .select ∨ connection.commandOf casing line = some .status) :
    connection.Reveals casing line :=
  ⟨notIdle, notAwaiting, .inr ⟨opened, asks⟩⟩

section

variable (shut : connection.Shut)

include shut

/-- A command that reveals nothing is answered without the contents. -/
theorem handleCommand_same (quiet : ¬ connection.Reveals casing line)
    (notIdle : connection.session.idleTag = none) (notAwaiting : connection.authTag = none)
    (isCommand : connection.commandOf casing line = some (verbOf casing (parseCommand line).command)) :
    connection.handleCommand casing other (parseCommand line) =
      connection.handleCommand casing contents (parseCommand line) := by
  have reveals := @reveals_of_commandOf casing connection line notIdle notAwaiting
  unfold handleCommand
  cases verb : verbOf casing (parseCommand line).command with
  | list =>
    dsimp only
    rw [cmdList, cmdList]
    split
    · rfl
    next opened =>
      split
      · rfl
      next pattern => exact absurd (reveals opened (.inl ⟨by rw [isCommand, verb], pattern⟩)) quiet
  | select =>
    dsimp only
    rw [cmdSelect, cmdSelect]
    split
    · rfl
    next opened => exact absurd (reveals opened (.inr (.inl (by rw [isCommand, verb])))) quiet
  | status =>
    dsimp only
    rw [cmdStatus, cmdStatus]
    split
    · rfl
    next opened => exact absurd (reveals opened (.inr (.inr (by rw [isCommand, verb])))) quiet
  | message =>
    dsimp only
    rw [cmdMessage, cmdMessage, if_pos shut.notSelected, if_pos shut.notSelected]
  | capability | noop | logout | login | authenticate | close | copy | idle | namespaces | unknown =>
    rfl

/-- A line that reveals nothing is answered without the contents. -/
theorem handleLine_same (quiet : ¬ connection.Reveals casing line) :
    connection.handleLine casing other line = connection.handleLine casing contents line := by
  unfold handleLine
  split
  · rfl
  next notIdle =>
    split
    · rfl
    next awaiting =>
      have notAwaiting : connection.authTag = none := by simpa using awaiting
      split
      next request isAppend =>
        exact absurd ⟨notIdle, notAwaiting, .inl (by rw [isAppend]; rfl)⟩ quiet
      next noAppend =>
        have isCommand : connection.commandOf casing line =
            some (verbOf casing (parseCommand line).command) := by
          rw [commandOf, if_neg (by simp [notIdle, notAwaiting, noAppend])]
        rw [@handleCommand_same casing contents other connection line shut quiet notIdle notAwaiting
          isCommand]

theorem Shut.inState {state : SessionState} (notSelected : state ≠ .selected) :
    (connection.inState state).Shut :=
  ⟨notSelected, shut.noFolder, shut.readsLines⟩

theorem Shut.withAuthTag (authTag : Option Text) :
    { connection with authTag := authTag }.Shut :=
  ⟨shut.notSelected, shut.noFolder, shut.readsLines⟩

theorem Shut.withIdleTag (idleTag : Option String) :
    { connection with session := { connection.session with idleTag := idleTag } }.Shut :=
  ⟨shut.notSelected, shut.noFolder, shut.readsLines⟩

theorem Shut.finished : connection.finished.Shut :=
  ⟨shut.notSelected, shut.noFolder, .inr rfl⟩

theorem Shut.next : connection.next.Shut :=
  ⟨shut.notSelected, shut.noFolder, shut.readsLines⟩

end

theorem shut_endIfLogout {done : List Text × Connection} (shut : done.2.Shut) : (endIfLogout done).2.Shut := by
  rw [endIfLogout]
  split
  · exact ⟨shut.notSelected, shut.noFolder, .inr rfl⟩
  · exact shut

theorem shut_handleAuthResponse (shut : connection.Shut) (line : Text) :
    (connection.handleAuthResponse line).2.Shut := by
  have answered := shut.withAuthTag none
  unfold handleAuthResponse
  split
  · exact shut
  · dsimp only
    split
    · exact answered
    · split
      · exact answered
      · split
        · exact answered
        · exact answered.inState (by decide)

/-- Only a SELECT behind a login or a CLOSE selects a mailbox. -/
theorem shut_handleCommand (shut : connection.Shut) (quiet : ¬ connection.Reveals casing line)
    (notIdle : connection.session.idleTag = none) (notAwaiting : connection.authTag = none)
    (isCommand : connection.commandOf casing line = some (verbOf casing (parseCommand line).command)) :
    (connection.handleCommand casing contents (parseCommand line)).2.Shut := by
  unfold handleCommand
  cases verb : verbOf casing (parseCommand line).command with
  | logout => exact shut.inState (by decide)
  | login =>
    dsimp only
    rw [cmdLogin]
    split
    · exact shut
    · exact shut.inState (by decide)
  | authenticate =>
    dsimp only
    rw [cmdAuthenticate]
    split
    · exact shut.withAuthTag _
    · exact shut
  | select =>
    dsimp only
    rw [cmdSelect]
    split
    · exact shut
    next opened =>
      exact absurd (reveals_of_commandOf notIdle notAwaiting opened
        (.inr (.inl (by rw [isCommand, verb])))) quiet
  | message =>
    dsimp only
    rw [cmdMessage, if_pos shut.notSelected]
    exact shut
  | close => exact ⟨by simp [cmdClose], rfl, shut.readsLines⟩
  | idle => exact shut.withIdleTag _
  | capability | noop | list | status | copy | namespaces | unknown => exact shut

theorem shut_handleLine (shut : connection.Shut) (quiet : ¬ connection.Reveals casing line) :
    (connection.handleLine casing contents line).2.Shut := by
  unfold handleLine
  split
  · rw [handleIdle]
    split
    · exact shut.withIdleTag _
    · exact shut
  next notIdle =>
    split
    · exact shut_endIfLogout (shut_handleAuthResponse shut line)
    next awaiting =>
      have notAwaiting : connection.authTag = none := by simpa using awaiting
      split
      next request isAppend =>
        exact absurd ⟨notIdle, notAwaiting, .inl (by rw [isAppend]; rfl)⟩ quiet
      next noAppend =>
        refine shut_endIfLogout (shut_handleCommand shut quiet notIdle notAwaiting ?_)
        rw [commandOf, if_neg (by simp [notIdle, notAwaiting, noAppend])]

end Quiet

end Connection

/-! ## Lines that reveal something -/

/-- Contents with one folder at the path. -/
def Contents.holding (path : Text) (specialUse : Option String) (mails : List StoredMail) : Contents :=
  { Contents.empty with
    store := (MailStore.new.setFolderList [{ sampleFolder "box" "entries" with
      imapPath := String.ofList path
      specialUse := specialUse }]).setFolder "box" mails }

section Holding

variable {path : Text} {specialUse : Option String} {mails : List StoredMail}

theorem folderByImapPath_holding :
    folderByImapPath (Contents.holding path specialUse mails).store (String.ofList path) =
      some { sampleFolder "box" "entries" with
        imapPath := String.ofList path
        specialUse := specialUse } := by
  rw [folderByImapPath, Contents.holding, MailStore.folderList_setFolder]
  exact List.find?_cons_of_pos (by simp)

theorem folderByImapPath_empty (name : String) : folderByImapPath Contents.empty.store name = none := rfl

theorem getFolder_holding : (Contents.holding path specialUse mails).store.getFolder "box" = mails := by
  rw [Contents.holding, MailStore.getFolder_setFolder, if_pos rfl]

end Holding

namespace Connection

section Revealing

variable {casing : Casing} {connection : Connection} {tag args line : Text}

theorem endIfLogout_fst (done : List Text × Connection) : (endIfLogout done).1 = done.1 := by
  rw [endIfLogout]
  split <;> rfl

/-- How much is written. -/
def volume (responses : List Text) : Nat := responses.flatten.length

theorem volume_cons (response : Text) (rest : List Text) :
    volume (response :: rest) = response.length + volume rest := by
  rw [volume, List.flatten_cons, List.length_append, volume]

theorem volume_append (first second : List Text) : volume (first ++ second) = volume first + volume second := by
  rw [volume, List.flatten_append, List.length_append, volume, volume]

theorem volume_nil : volume [] = 0 := rfl

/-- An APPEND whose message has no copy is answered in few words, if it is. -/
theorem volume_endTail_le {bridge : Bridge} (request : AppendRequest) (literal : List UInt8)
    (noCopy : ∀ moment, (bridge.contents moment).sentCopyUid = fun _ _ => none) :
    volume (connection.endTail bridge request literal).1 ≤ request.tag.length + 22 := by
  have completed : "OK APPEND completed".length = 19 := by decide
  have answer : ∀ messageId, appendResponse (bridge.contents connection.moment) request messageId =
      tagged request.tag "OK APPEND completed" := by
    intro messageId
    have none' : messageId.bind ((bridge.contents connection.moment).sentCopyUid request.mailbox) = none := by
      rw [noCopy]
      cases messageId <;> rfl
    rw [appendResponse, none']
  rw [endTail]
  split
  · exact Nat.zero_le _
  · rw [finishAppend]
    split
    · rw [answer, volume_cons, length_tagged, completed, volume_nil]
    · exact Nat.zero_le _

/-- An APPEND is refused with another text when the mailbox is no Sent folder, also when the
stream ends behind it. -/
theorem beginAppend_diverges (casing : Casing) (isLine : connection.reading = .line) (request : AppendRequest) :
    ∃ one other, volume (connection.beginAppend one request).1 ≠ volume (connection.beginAppend other request).1 ∧
      volume (closing ⟨casing, fun _ => one⟩ (connection.beginAppend one request)).1 ≠
        volume (closing ⟨casing, fun _ => other⟩ (connection.beginAppend other request)).1 := by
  have notSent : appendTargetsSent Contents.empty.store request.mailbox = false := rfl
  have isSent : appendTargetsSent
      (Contents.holding (decodeName request.mailbox) (some "\\Sent") []).store request.mailbox = true := by
    rw [appendTargetsSent, folderByImapPath_holding]
    rfl
  have refusal : ("NO [CANNOT] APPEND is only supported for the Sent folder; " ++
      "Tuta saves sent mail automatically").length = 92 := by decide
  have tooLarge : "NO message too large".length = 20 := by decide
  have goOn : "+ OK".length = 4 := by decide
  refine ⟨.empty, .holding (decodeName request.mailbox) (some "\\Sent") [], ?_⟩
  rw [beginAppend, beginAppend, if_pos (by rw [notSent]; exact Bool.false_ne_true),
    if_neg (by rw [isSent]; exact not_not_intro rfl), closing_of_readsLines (.inl isLine)]
  dsimp only
  rw [volume_cons, length_tagged, refusal, volume_nil]
  split
  · rw [closing_of_readsLines (.inl isLine)]
    dsimp only
    rw [volume_cons, length_tagged, tooLarge, volume_nil]
    omega
  · have few : volume (endLiteral ⟨casing, fun _ =>
        .holding (decodeName request.mailbox) (some "\\Sent") []⟩ { connection with
          reading := if request.literalSize = 0 then .tail request [] else .literal request }).1 ≤
        request.tag.length + 22 := by
      by_cases empty : request.literalSize = 0
      · rw [if_pos empty, endLiteral]
        exact volume_endTail_le _ _ fun _ => rfl
      · rw [if_neg empty, endLiteral]
        exact Nat.zero_le _
    rw [closing]
    dsimp only
    rw [volume_append, volume_cons, length_untagged, goOn, volume_nil]
    omega

theorem length_listLine_pos (folder : FolderInfo) : 0 < (listLine folder).length := by
  have lineEnd : 0 < crlf.length := by decide
  obtain ⟨shown, same⟩ : ∃ shown, listLine folder = shown ++ crlf := ⟨_, rfl⟩
  rw [same, List.length_append]
  exact Nat.lt_add_left _ lineEnd

section

variable (opened : connection.session.state ≠ .notAuthenticated)

include opened

/-- LIST shows the folders. -/
theorem cmdList_diverges (pattern : ¬ asksDelimiter args) :
    volume (connection.cmdList .empty tag args) ≠ volume (connection.cmdList (.holding [] none []) tag args) := by
  have noneListed : Contents.empty.store.folderList = [] := rfl
  obtain ⟨folder, listed⟩ : ∃ folder, (Contents.holding [] none []).store.folderList = [folder] :=
    ⟨_, MailStore.folderList_setFolder _ _ _⟩
  have shown := length_listLine_pos folder
  rw [cmdList, cmdList, if_neg opened, if_neg opened, if_neg pattern, if_neg pattern, noneListed,
    listed, List.map_nil, List.map_singleton, List.nil_append, List.singleton_append]
  simp only [volume_cons]
  omega

/-- SELECT tells whether the mailbox exists. -/
theorem cmdSelect_diverges : volume (connection.cmdSelect .empty tag args).1 ≠ volume (connection.cmdSelect
        (.holding (decodeName (selectMailbox args)) none []) tag args).1 := by
  have missing : "NO [NONEXISTENT] Mailbox does not exist".length = 39 := by decide
  have completed : "OK [READ-WRITE] SELECT completed".length = 32 := by decide
  have flags : "* FLAGS (\\Seen \\Answered \\Flagged \\Deleted \\Draft)".length = 50 := by decide
  rw [cmdSelect, cmdSelect, if_neg opened, if_neg opened, folderByImapPath_empty, folderByImapPath_holding]
  dsimp only
  rw [volume_cons, length_tagged, missing, volume_nil, selectResponses, volume_append, volume_append]
  simp only [volume_cons, length_tagged, length_untagged, completed, flags]
  omega

/-- STATUS counts the messages. -/
theorem cmdStatus_diverges : volume (connection.cmdStatus .empty tag args) ≠
      volume (connection.cmdStatus (.holding (decodeName (statusMailbox args)) none
        (List.replicate 10 (sampleStored "mail" 1))) tag args) := by
  have two : (Text.decimal 10).length = 2 := by decide
  have one : (Text.decimal 0).length = 1 := by decide
  have total : (List.replicate 10 (sampleStored "mail" 1)).length = 10 := by decide
  have unread : (List.replicate 10 (sampleStored "mail" 1)).countP (·.mail.unread) = 10 := by decide
  rw [cmdStatus, cmdStatus, if_neg opened, if_neg opened, folderByImapPath_empty, folderByImapPath_holding]
  dsimp only
  rw [show (sampleFolder "box" "entries").id = "box" from rfl, getFolder_holding, unread, total,
    List.length_nil, List.countP_nil]
  simp only [volume_cons, List.length_append, two, one]
  omega

end

/-- A line that reveals something is answered with more or less under other contents, also
when the stream ends behind it. -/
theorem handleLine_diverges (isLine : connection.reading = .line) (reveals : connection.Reveals casing line) :
    ∃ one other, volume (connection.handleLine casing one line).1 ≠ volume (connection.handleLine casing other line).1 ∧
      volume (closing ⟨casing, fun _ => one⟩ (connection.handleLine casing one line)).1 ≠
        volume (closing ⟨casing, fun _ => other⟩ (connection.handleLine casing other line)).1 := by
  obtain ⟨notIdle, notAwaiting, appends | ⟨opened, asks⟩⟩ := reveals
  · obtain ⟨request, isAppend⟩ := Option.isSome_iff_exists.mp appends
    have handled : ∀ contents, connection.handleLine casing contents line =
        connection.beginAppend contents request := by
      intro contents
      rw [handleLine, notIdle]
      dsimp only
      rw [if_neg (by simp [notAwaiting]), isAppend]
    simp only [handled]
    exact beginAppend_diverges casing isLine request
  · have handled : ∀ verb, connection.commandOf casing line = some verb → ∀ contents,
        (connection.handleLine casing contents line).1 =
          (connection.handleCommand casing contents (parseCommand line)).1 ∧
        (closing ⟨casing, fun _ => contents⟩ (connection.handleLine casing contents line)).1 =
          (connection.handleCommand casing contents (parseCommand line)).1 ∧
            verbOf casing (parseCommand line).command = verb := by
      intro verb isCommand contents
      obtain ⟨-, -, noAppend, isVerb⟩ := commandOf_eq_some isCommand
      have answer : connection.handleLine casing contents line =
          endIfLogout (connection.handleCommand casing contents (parseCommand line)) := by
        rw [handleLine, notIdle]
        dsimp only
        rw [if_neg (by simp [notAwaiting]), noAppend]
      have readsLines : (connection.handleLine casing contents line).2.reading = .line ∨
          (connection.handleLine casing contents line).2.reading = .ended := by
        rw [answer, endIfLogout]
        split
        · exact .inr rfl
        · exact .inl (handleCommand_frame _ |>.1.trans isLine)
      rw [closing_of_readsLines readsLines, answer, endIfLogout_fst]
      exact ⟨rfl, rfl, isVerb⟩
    rcases asks with ⟨isList, pattern⟩ | isSelect | isStatus
    · refine ⟨.empty, .holding [] none [], ?_⟩
      obtain ⟨emptyAnswer, emptyLast, verb⟩ := handled _ isList .empty
      obtain ⟨answer, last, -⟩ := handled _ isList (.holding [] none [])
      rw [emptyAnswer, emptyLast, answer, last, handleCommand, handleCommand, verb]
      exact ⟨cmdList_diverges opened pattern, cmdList_diverges opened pattern⟩
    · refine ⟨.empty, .holding (decodeName (selectMailbox (parseCommand line).args)) none [], ?_⟩
      obtain ⟨emptyAnswer, emptyLast, verb⟩ := handled _ isSelect .empty
      obtain ⟨answer, last, -⟩ := handled _ isSelect
        (.holding (decodeName (selectMailbox (parseCommand line).args)) none [])
      rw [emptyAnswer, emptyLast, answer, last, handleCommand, handleCommand, verb]
      exact ⟨cmdSelect_diverges opened, cmdSelect_diverges opened⟩
    · refine ⟨.empty, .holding (decodeName (statusMailbox (parseCommand line).args)) none
        (List.replicate 10 (sampleStored "mail" 1)), ?_⟩
      obtain ⟨emptyAnswer, emptyLast, verb⟩ := handled _ isStatus .empty
      obtain ⟨answer, last, -⟩ := handled _ isStatus
        (.holding (decodeName (statusMailbox (parseCommand line).args)) none
          (List.replicate 10 (sampleStored "mail" 1)))
      rw [emptyAnswer, emptyLast, answer, last, handleCommand, handleCommand, verb]
      exact ⟨cmdStatus_diverges opened, cmdStatus_diverges opened⟩

end Revealing

/-! ## Arrivals -/

section Arrivals

variable {bridge other : Bridge} {connection : Connection} {arrival : Arrival}

theorem endLine_same (sameCasing : other.casing = bridge.casing) (shut : connection.Shut)
    (quiet : ∀ line, Utf8.decode connection.pending = some line →
      ¬ connection.Reveals bridge.casing (Text.trimEnd line)) :
    connection.endLine other = connection.endLine bridge ∧ (connection.endLine bridge).2.Shut := by
  rw [endLine, endLine]
  split
  · exact ⟨rfl, shut.next.finished⟩
  next line decoded =>
    rw [sameCasing]
    exact ⟨handleLine_same shut.next (quiet line decoded), shut_handleLine shut.next (quiet line decoded)⟩

/-- What arrives does the same on two bridges that have nothing but their password and the
case mapping in common, unless it completes a line that reveals something. -/
theorem receive_same (sameCasing : other.casing = bridge.casing) (shut : connection.Shut)
    (quiet : ¬ connection.Discloses bridge.casing arrival) :
    connection.receive other arrival = connection.receive bridge arrival ∧
      (connection.receive bridge arrival).2.Shut := by
  rcases shut.readsLines with isLine | ended
  · cases arrival with
    | octet byte =>
      rw [receive, receive, receiveOctet, receiveOctet, isLine]
      dsimp only
      split
      next isLineFeed =>
        refine endLine_same sameCasing ⟨shut.notSelected, shut.noFolder, .inl isLine⟩ ?_
        intro line decoded reveals
        refine quiet ⟨_, ?_, reveals⟩
        rw [completes, if_pos ⟨isLine, isLineFeed⟩, decoded]
        rfl
      · exact ⟨rfl, shut.notSelected, shut.noFolder, .inl isLine⟩
    | storeChanged =>
      have unchanged : ∀ read reread, connection.session.checkNewMail read reread =
          ([], connection.session) := by
        intro read reread
        rw [ImapSession.checkNewMail, shut.noFolder]
      rw [receive, receive, receiveChange, receiveChange]
      split
      · dsimp only
        rw [unchanged, unchanged]
        exact ⟨rfl, shut.notSelected, shut.noFolder, .inl isLine⟩
      · exact ⟨rfl, shut⟩
    | closed =>
      rw [receive, receive, receiveEnd, receiveEnd, isLine]
      dsimp only
      split
      · exact ⟨rfl, shut.finished⟩
      next begun =>
        have same := @endLine_same bridge other connection sameCasing shut ?_
        · rw [same.1]
          show closing other (connection.endLine bridge) = closing bridge (connection.endLine bridge) ∧
            (closing bridge (connection.endLine bridge)).2.Shut
          rw [closing_of_readsLines same.2.readsLines, closing_of_readsLines same.2.readsLines]
          exact ⟨rfl, same.2.finished⟩
        · intro line decoded reveals
          refine quiet ⟨_, ?_, reveals⟩
          rw [completes, if_pos ⟨isLine, begun⟩, decoded]
          rfl
  · rw [receive_ended ended, receive_ended ended]
    exact ⟨rfl, shut⟩

/-- An arrival that completes a revealing line writes more or less under other contents. -/
theorem receive_diverges (casing : Casing) (discloses : connection.Discloses casing arrival) : ∃ one other : Contents,
      volume (connection.receive ⟨casing, fun _ => one⟩ arrival).1 ≠
        volume (connection.receive ⟨casing, fun _ => other⟩ arrival).1 := by
  obtain ⟨line, completed, reveals⟩ := discloses
  obtain ⟨isLine, handled⟩ := receive_completed completed
  obtain ⟨one, other, differ, lastDiffer⟩ :=
    @handleLine_diverges casing connection.next line isLine reveals
  refine ⟨one, other, ?_⟩
  rcases handled with goesOn | stops
  · rw [goesOn, goesOn]
    exact differ
  · rw [stops, stops]
    exact lastDiffer

/-- A revealing line presents no password. -/
theorem not_accepts_of_discloses {casing : Casing} {password : String}
    (discloses : connection.Discloses casing arrival) : ¬ connection.Accepts casing password arrival := by
  obtain ⟨line, completed, notIdle, notAwaiting, reveals⟩ := discloses
  rintro ⟨other, same, presented⟩
  obtain rfl := Option.some.inj (completed.symm.trans same)
  have noLogin : connection.commandOf casing line ≠ some .login := by
    rcases reveals with appends | ⟨-, ⟨isList, -⟩ | isSelect | isStatus⟩
    · rw [commandOf, if_pos (.inr (.inr appends))]
      exact Option.some_ne_none _ ∘ Eq.symm
    · rw [isList]
      decide
    · rw [isSelect]
      decide
    · rw [isStatus]
      decide
  rw [presents, if_neg (by simp [notIdle]), if_neg (by simp [notAwaiting]), if_neg noLogin] at presented
  cases presented

end Arrivals

end Connection

/-! ## Runs -/

/-- The octets that the bridge writes. -/
def written (bridge : Bridge) (start : Connection) (arrivals : List Arrival) : List UInt8 :=
  Utf8.encode (runConnectionLoop bridge start arrivals).1.flatten

/-- Until a client has logged in, it is written the same whatever the bridge holds. -/
def SameBeforeLogin (casing : Casing) (password : String) (start : Connection)
    (arrivals : List Arrival) : Prop :=
  ∀ one other : Nat → Contents, ∀ before, before <+: arrivals →
    ¬ Authorized ⟨casing, one⟩ password start before →
    ¬ Authorized ⟨casing, other⟩ password start before →
      written ⟨casing, one⟩ start before = written ⟨casing, other⟩ start before

/-- No line that reveals something is handled before the password was presented. -/
def QuietBeforeLogin (bridge : Bridge) (password : String) (start : Connection)
    (arrivals : List Arrival) : Prop :=
  ∀ before arrival later, arrivals = before ++ arrival :: later → ¬ Authorized bridge password start before →
      ¬ (runConnectionLoop bridge start before).2.Discloses bridge.casing arrival

section Secrecy

variable {bridge other : Bridge} {password : String} {start : Connection} {arrivals : List Arrival}
  {last : Arrival}

theorem quietBeforeLogin_concat : QuietBeforeLogin bridge password start (arrivals ++ [last]) ↔
      QuietBeforeLogin bridge password start arrivals ∧ (¬ Authorized bridge password start arrivals →
          ¬ (runConnectionLoop bridge start arrivals).2.Discloses bridge.casing last) := by
  constructor
  · intro quiet
    refine ⟨?_, quiet arrivals last [] rfl⟩
    rintro before arrival later rfl
    exact quiet before arrival (later ++ [last]) (by simp)
  · rintro ⟨quiet, atLast⟩ before arrival later same
    rcases concat_eq_append_cons same with ⟨rfl, rfl, rfl⟩ | ⟨rest, rfl, rfl⟩
    · exact atLast
    · exact quiet before arrival rest rfl

theorem authorized_append (later : List Arrival) (authorized : Authorized bridge password start arrivals) :
    Authorized bridge password start (arrivals ++ later) := by
  obtain ⟨before, arrival, rest, rfl, accepts⟩ := authorized
  exact ⟨before, arrival, rest ++ later, by simp, accepts⟩

/-- Without a login and a revealing line, a run is the same on the other bridge. -/
theorem runConnectionLoop_same (sameCasing : other.casing = bridge.casing) (shut : start.Shut)
    (quiet : QuietBeforeLogin bridge password start arrivals)
    (noLogin : ¬ Authorized bridge password start arrivals) :
    runConnectionLoop other start arrivals = runConnectionLoop bridge start arrivals := by
  refine @run_congr _ _ _ (Connection.receive bridge) (Connection.receive other)
    (fun connection arrival => ¬ connection.Discloses bridge.casing arrival) Connection.Shut
    (fun connection arrival shut quiet => (Connection.receive_same sameCasing shut quiet).1)
    (fun connection arrival shut quiet => (@Connection.receive_same bridge bridge _ _ rfl shut quiet).2)
    start arrivals shut ?_
  rw [Guarded.iff_forall_split]
  rintro before arrival later rfl
  rw [← run_snd]
  exact quiet before arrival later rfl fun authorized =>
    noLogin (authorized_append _ authorized)

/-- A login is the same on the other bridge, too. -/
theorem authorized_same (sameCasing : other.casing = bridge.casing) (shut : start.Shut)
    (quiet : QuietBeforeLogin bridge password start arrivals) :
    Authorized other password start arrivals ↔ Authorized bridge password start arrivals := by
  induction arrivals using List.reverseRecOn with
  | nil =>
    constructor <;>
    · rintro ⟨before, arrival, later, same, -⟩
      simp at same
  | append_singleton arrivals last ih =>
    obtain ⟨quietBefore, -⟩ := quietBeforeLogin_concat.mp quiet
    rw [authorized_concat, authorized_concat, ih quietBefore]
    by_cases authorized : Authorized bridge password start arrivals
    · simp [authorized]
    · rw [runConnectionLoop_same sameCasing shut quietBefore authorized, sameCasing]

/-- A bridge tells nothing before login exactly when no line that reveals something is
handled before it. -/
theorem sameBeforeLogin_iff (shut : start.Shut) : SameBeforeLogin bridge.casing password start arrivals ↔
      QuietBeforeLogin bridge password start arrivals := by
  constructor
  · induction arrivals using List.reverseRecOn with
    | nil =>
      rintro - before arrival later same
      simp at same
    | append_singleton arrivals last ih =>
      intro same
      have quiet := ih fun one other before isPrefix =>
        same one other before (isPrefix.trans (List.prefix_append _ _))
      refine quietBeforeLogin_concat.mpr ⟨quiet, fun noLogin discloses => ?_⟩
      obtain ⟨one, other, differ⟩ := Connection.receive_diverges bridge.casing discloses
      have sameRun : ∀ contents : Contents,
          runConnectionLoop ⟨bridge.casing, fun _ => contents⟩ start arrivals =
            runConnectionLoop bridge start arrivals := fun contents =>
        @runConnectionLoop_same bridge _ password start arrivals rfl shut quiet noLogin
      have stillNoLogin : ∀ contents : Contents,
          ¬ Authorized ⟨bridge.casing, fun _ => contents⟩ password start (arrivals ++ [last]) := by
        intro contents
        rw [authorized_concat, sameRun, not_or,
          @authorized_same bridge ⟨bridge.casing, fun _ => contents⟩ password start arrivals rfl shut quiet]
        exact ⟨noLogin, Connection.not_accepts_of_discloses discloses⟩
      have sameText := Utf8.encode_injective (same (fun _ => one) (fun _ => other) _ List.prefix_rfl
        (stillNoLogin one) (stillNoLogin other))
      have split : ∀ contents : Contents,
          (runConnectionLoop ⟨bridge.casing, fun _ => contents⟩ start (arrivals ++ [last])).1 =
            (runConnectionLoop bridge start arrivals).1 ++
              ((runConnectionLoop bridge start arrivals).2.receive
                ⟨bridge.casing, fun _ => contents⟩ last).1 := by
        intro contents
        rw [← sameRun contents, runConnectionLoop, run_concat]
        rfl
      rw [split, split, List.flatten_append, List.flatten_append] at sameText
      exact differ (congrArg List.length (List.append_cancel_left sameText))
  · intro quiet one other before isPrefix noLogin alsoNoLogin
    obtain ⟨later, rfl⟩ := isPrefix
    have quietBefore : QuietBeforeLogin bridge password start before := by
      rintro first label second rfl
      exact quiet first label (second ++ later) (by simp)
    have sameRun : ∀ contents : Nat → Contents, ¬ Authorized ⟨bridge.casing, contents⟩ password start before →
        runConnectionLoop ⟨bridge.casing, contents⟩ start before =
          runConnectionLoop bridge start before := by
      intro contents absent
      rw [@authorized_same bridge ⟨bridge.casing, contents⟩ password start before rfl shut
        quietBefore] at absent
      exact runConnectionLoop_same rfl shut quietBefore absent
    rw [written, written, sameRun one noLogin, sameRun other alsoNoLogin]

end Secrecy

theorem opened_shut (passwordHash : Option String) : (Connection.opened passwordHash).Shut where
  notSelected := by
    intro impossible
    cases impossible
  noFolder := rfl
  readsLines := .inl rfl

end TutaBridge.Imap
