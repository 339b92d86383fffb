import TutaBridge.Imap.Gate

/-!
# Literals of APPEND

A client sends the literal of `{N}` only when the bridge answers `+ OK`, and the literal
of `{N+}` at once. What the bridge takes for a line while octets of a literal arrive is
recorded here. A literal that was announced with `{N}` is never read as lines; one that
was announced with `{N+}` is, unless the bridge takes it.
-/

namespace TutaBridge.Imap

open TutaBridge.Std Tuta Store

/-! ## The client -/

/-- A literal: `{N}` if it is synchronizing, else `{N+}`. -/
structure Literal where
  synchronizing : Bool
  octets : List UInt8

/-- An APPEND that declares its literal at the end of the line. -/
structure AppendLine where
  tag : Text
  command : Text
  arguments : Text
  literal : Literal
  tagSolid : ' ' ∉ tag
  isAppend : Text.eqIgnoreAsciiCase command "APPEND".toList = true
  oneLine : '\n' ∉ tag ∧ '\n' ∉ arguments

/-- The line, without its end. -/
def AppendLine.text (line : AppendLine) : Text :=
  line.tag ++ ' ' :: (line.command ++ ' ' ::
    (line.arguments ++ literalMark line.literal.synchronizing line.literal.octets.length))

/-- Octets of a line that the bridge does not read as an APPEND. -/
structure OtherLine where
  octets : List UInt8
  oneLine : Connection.lineFeed ∉ octets
  noAppend : ∀ text, Utf8.decode (octets ++ [Connection.lineFeed]) = some text →
    parseAppend (Text.trimEnd text) = none

/-- What happens on a connection at a time: a client sends an APPEND with its literal or
another line, or the store changes between two lines. -/
inductive Turn where
  | append (line : AppendLine)
  | other (line : OtherLine)
  | storeChanged

/-- Octets as a client sends them, with whether they belong to a literal. -/
def plain (bytes : List UInt8) : List (UInt8 × Bool) := bytes.map (·, false)

def ofLiteral (bytes : List UInt8) : List (UInt8 × Bool) := bytes.map (·, true)

/-- The answer on which a client sends a synchronizing literal. -/
def goesAhead (responses : List Text) : Bool := responses.any (· = untagged "+ OK")

/-- A connection, and whether an octet of a literal is among those read of the line. -/
structure Watch where
  connection : Connection
  touched : Bool

namespace Watch

/-- Take an octet; the result is the line it completes, if that has an octet of a literal. -/
def take (bridge : Bridge) (watch : Watch) (sent : UInt8 × Bool) : List Text × Watch :=
  let touched := decide (watch.connection.reading = .line) && (watch.touched || sent.2)
  (if touched then (watch.connection.completes (.octet sent.1)).toList else [],
    ⟨(watch.connection.receive bridge (.octet sent.1)).2, touched && decide (sent.1 ≠ Connection.lineFeed)⟩)

/-- A turn of the client, with the lines that octets of a literal were taken for. -/
def takeTurn (bridge : Bridge) (watch : Watch) : Turn → List Text × Watch
  | .append line =>
    let announced := run (take bridge) watch (plain (Utf8.encode (line.text ++ crlf)))
    let answer :=
      (runConnectionLoop bridge watch.connection (octets (Utf8.encode (line.text ++ crlf)))).1
    if line.literal.synchronizing ∧ ¬ goesAhead answer then announced
    else
      let sent := run (take bridge) announced.2 (ofLiteral line.literal.octets ++ plain (Utf8.encode crlf))
      (announced.1 ++ sent.1, sent.2)
  | .other line => run (take bridge) watch (plain (line.octets ++ [Connection.lineFeed]))
  | .storeChanged => ([], { watch with connection := (watch.connection.receiveChange bridge).2 })

/-! ## Lines -/

section Lines

variable {bridge : Bridge} {watch : Watch} {sents : List (UInt8 × Bool)}

/-- A loop that has ended takes nothing for a line. -/
theorem run_take_ended (ended : watch.connection.reading = .ended) : (run (take bridge) watch sents).1 = [] ∧
      (run (take bridge) watch sents).2.connection = watch.connection := by
  induction sents generalizing watch with
  | nil => exact ⟨rfl, rfl⟩
  | cons sent rest ih =>
    have kept : (take bridge watch sent).2.connection = watch.connection :=
      congrArg Prod.snd (Connection.receive_ended ended _)
    have notLine : decide (watch.connection.reading = .line) = false := by
      rw [ended]
      rfl
    have silent : (take bridge watch sent).1 = [] := by
      rw [take, notLine]
      rfl
    obtain ⟨later, stays⟩ := @ih (take bridge watch sent).2 (kept ▸ ended)
    rw [run_cons]
    dsimp only
    rw [silent, later, stays, kept]
    exact ⟨rfl, rfl⟩

/-- Octets of a line that does not end yet. -/
theorem run_take_begun (isLine : watch.connection.reading = .line)
    (unended : Connection.lineFeed ∉ sents.map Prod.fst) :
    run (take bridge) watch sents =
      ([], ⟨{ watch.connection with pending := watch.connection.pending ++ sents.map Prod.fst },
        watch.touched || sents.any Prod.snd⟩) := by
  induction sents generalizing watch with
  | nil => simp [run_nil]
  | cons sent rest ih =>
    rw [List.map_cons] at unended
    obtain ⟨different, absent⟩ := not_or.mp (mt List.mem_cons.mpr unended)
    have kept : watch.connection.receive bridge (.octet sent.1) = ([], watch.connection.push sent.1) := by
      rw [Connection.receive, Connection.receiveOctet, isLine]
      exact if_neg (Ne.symm different)
    have incomplete : watch.connection.completes (.octet sent.1) = none := by
      rw [Connection.completes]
      exact if_neg fun both => different both.2.symm
    have taken : take bridge watch sent = ([], ⟨watch.connection.push sent.1, watch.touched || sent.2⟩) := by
      rw [take, isLine, incomplete, kept]
      simp [Ne.symm different]
    have later := @ih ⟨watch.connection.push sent.1, watch.touched || sent.2⟩ isLine absent
    rw [run_cons, taken]
    dsimp only
    rw [later]
    simp [Connection.push, Bool.or_assoc]

/-- Octets up to a line feed are a line, which counts if one of them is of a literal. -/
theorem run_take_line (isLine : watch.connection.reading = .line)
    (fresh : watch.connection.pending = []) (untouched : watch.touched = false)
    (unended : Connection.lineFeed ∉ sents.map Prod.fst) (mark : Bool) :
    run (take bridge) watch (sents ++ [(Connection.lineFeed, mark)]) = (if sents.any Prod.snd || mark then
          ((Utf8.decode (sents.map Prod.fst ++ [Connection.lineFeed])).map Text.trimEnd).toList
        else [],
        ⟨(Connection.endLine bridge { watch.connection with
            pending := sents.map Prod.fst ++ [Connection.lineFeed] }).2, false⟩) := by
  rw [run_concat, run_take_begun isLine unended, fresh, untouched]
  have received : ∀ pending : List UInt8,
      Connection.receive bridge { watch.connection with pending := pending } (.octet Connection.lineFeed) =
        { watch.connection with pending := pending ++ [Connection.lineFeed] }.endLine bridge := by
    intro pending
    rw [Connection.receive, Connection.receiveOctet]
    dsimp only
    rw [isLine]
    exact if_pos rfl
  have completed : ∀ pending : List UInt8, Connection.completes { watch.connection with pending := pending }
          (.octet Connection.lineFeed) =
        (Utf8.decode (pending ++ [Connection.lineFeed])).map Text.trimEnd := by
    intro pending
    rw [Connection.completes]
    exact if_pos ⟨isLine, rfl⟩
  dsimp only
  rw [take]
  dsimp only
  rw [received, completed, decide_eq_true isLine, Bool.true_and, Bool.false_or]
  simp

/-- Octets of a literal that the bridge reads. -/
theorem run_take_literal {request : AppendRequest} {bytes : List UInt8}
    (isLiteral : watch.connection.reading = .literal request) (someLeft : bytes ≠ [])
    (size : request.literalSize = (watch.connection.pending ++ bytes).length) :
    run (take bridge) watch (ofLiteral bytes) = ([], ⟨{ watch.connection with
        reading := .tail request (watch.connection.pending ++ bytes)
        pending := [] }, false⟩) := by
  have notLine : decide (watch.connection.reading = .line) = false := by
    rw [isLiteral]
    rfl
  induction bytes generalizing watch with
  | nil => exact absurd rfl someLeft
  | cons byte rest ih =>
    have received : watch.connection.receive bridge (.octet byte) =
        if request.literalSize ≤ (watch.connection.push byte).pending.length then
          ([], { watch.connection with
            reading := .tail request (watch.connection.push byte).pending
            pending := [] })
        else ([], watch.connection.push byte) := by
      rw [Connection.receive, Connection.receiveOctet, isLiteral]
    have taken : take bridge watch (byte, true) =
        ([], ⟨(watch.connection.receive bridge (.octet byte)).2, false⟩) := by
      rw [take, notLine]
      rfl
    rw [ofLiteral, List.map_cons, run_cons, taken, received]
    rcases eq_or_ne rest [] with rfl | moreLeft
    · rw [if_pos (by rw [size]; exact Nat.le_refl _)]
      rfl
    · have room : 0 < rest.length := List.length_pos_iff.mpr moreLeft
      rw [if_neg (by rw [size]; simp [Connection.push]; exact moreLeft)]
      have later := @ih ⟨watch.connection.push byte, false⟩ isLiteral moreLeft
        (by rw [size]; simp [Connection.push]) notLine
      dsimp only
      rw [ofLiteral] at later
      rw [later]
      simp [Connection.push]

/-- The connection reads lines again behind a literal, or it has ended with the parser. -/
theorem finishAppend_snd {casing : Casing} {contents : Contents} {connection : Connection}
    (request : AppendRequest) (literal : List UInt8) :
    ∃ reading, (reading = .line ∨ reading = .ended) ∧
      (connection.finishAppend casing contents request literal).2 =
        { connection with reading := reading } := by
  rw [Connection.finishAppend]
  split
  · exact ⟨.line, .inl rfl, rfl⟩
  · exact ⟨.ended, .inr rfl, rfl⟩

/-- The end of the line that a literal stood in. -/
theorem run_take_tail {request : AppendRequest} {literal : List UInt8}
    (isTail : watch.connection.reading = .tail request literal)
    (fresh : watch.connection.pending = []) :
    ∃ reading, (reading = .line ∨ reading = .ended) ∧ run (take bridge) watch (plain (Utf8.encode crlf)) =
        ([], ⟨{ watch.connection.next with reading := reading }, false⟩) := by
  have lineEnd : plain (Utf8.encode crlf) = [(0x0D, false), (Connection.lineFeed, false)] := by decide
  have decoded : Utf8.decode [0x0D, Connection.lineFeed] = some crlf := by decide
  have notLine : decide (watch.connection.reading = .line) = false := by
    rw [isTail]
    rfl
  have begun : take bridge watch (0x0D, false) = ([], ⟨watch.connection.push 0x0D, false⟩) := by
    have received : watch.connection.receive bridge (.octet 0x0D) = ([], watch.connection.push 0x0D) := by
      rw [Connection.receive, Connection.receiveOctet, isTail]
      exact if_neg (by decide)
    rw [take, notLine, received]
    rfl
  obtain ⟨reading, linesOrEnd, finish⟩ := @finishAppend_snd bridge.casing
    (bridge.contents watch.connection.moment) watch.connection.next request literal
  have ended : take bridge ⟨watch.connection.push 0x0D, false⟩ (Connection.lineFeed, false) =
      ([], ⟨{ watch.connection.next with reading := reading }, false⟩) := by
    have stillTail : (watch.connection.push 0x0D).reading = .tail request literal := isTail
    have pushed : ((watch.connection.push 0x0D).push Connection.lineFeed).pending =
        [0x0D, Connection.lineFeed] := by
      simp [Connection.push, fresh]
    have received : ((watch.connection.push 0x0D).receive bridge (.octet Connection.lineFeed)).2 =
        { watch.connection.next with reading := reading } := by
      rw [Connection.receive, Connection.receiveOctet, stillTail]
      dsimp only
      rw [if_pos rfl, Connection.endTail, pushed, decoded]
      exact finish
    have stillNotLine : decide ((watch.connection.push 0x0D).reading = .line) = false := notLine
    rw [take]
    dsimp only
    rw [stillNotLine, received]
    rfl
  refine ⟨reading, linesOrEnd, ?_⟩
  rw [lineEnd, run_cons, begun]
  dsimp only
  rw [run_cons, ended, run_nil]
  rfl

end Lines

end Watch

/-! ## An APPEND in a session -/

namespace Connection

section Append

variable {casing : Casing} {contents : Contents} {connection : Connection} {line : AppendLine}

/-- The bridge takes the literal: the line is handled as a command, its mailbox is the Sent
folder, and the literal is not too large. -/
def TakesLiteral (contents : Contents) (connection : Connection) (line : AppendLine) : Prop :=
  connection.session.idleTag = none ∧ connection.authTag = none ∧
    ∃ request ∈ parseAppend line.text, appendTargetsSent contents.store request.mailbox = true ∧
      request.literalSize ≤ maxAppendBytes

/-- A character whose lower case does not stand in "append" does not stand in the command. -/
theorem not_mem_command (line : AppendLine) {char : Char}
    (other : char.toLower ∉ "APPEND".toList.map Char.toLower) : char ∉ line.command := by
  intro mem
  have same := line.isAppend
  rw [Text.eqIgnoreAsciiCase, decide_eq_true_eq] at same
  have lower := List.mem_map_of_mem (f := Char.toLower) mem
  rw [same] at lower
  exact other lower

theorem parseCommand_text (line : AppendLine) : parseCommand line.text = ⟨line.tag, line.command,
      line.arguments ++ literalMark line.literal.synchronizing line.literal.octets.length⟩ :=
  parseCommand_args _ line.tagSolid (not_mem_command line (by decide))

/-- The bridge reads the size of the literal as the client has declared it. -/
theorem literalSize_of_parseAppend {request : AppendRequest} (parsed : parseAppend line.text = some request) :
    request.literalSize = line.literal.octets.length := by
  simp only [parseAppend, parseCommand_text] at parsed
  rw [if_pos line.isAppend, Option.bind_eq_some_iff] at parsed
  obtain ⟨mailbox, -, sized⟩ := parsed
  rw [appendLiteralSize_mark, Option.map_eq_some_iff] at sized
  obtain ⟨size, reads, rfl⟩ := sized
  exact Text.eq_of_parseUnsigned_decimal reads

theorem verbOf_append (casing : Casing) (line : AppendLine) :
    verbOf casing (parseCommand line.text).command = .unknown := by
  rw [parseCommand_text, verbOf, casing.toUppercase_of_eqIgnoreAsciiCase line.isAppend
    (Text.forall_ascii (by decide))]
  decide

theorem endIfLogout_of_live {done : List Text × Connection} (live : done.2.session.state ≠ .logout) :
    endIfLogout done = done := by
  rw [endIfLogout, if_neg live]

/-- An APPEND whose literal is taken. -/
theorem handleLine_taken (takes : connection.TakesLiteral contents line) :
    ∃ request, request.literalSize = line.literal.octets.length ∧
      connection.handleLine casing contents line.text = ([untagged "+ OK"], { connection with
          reading := if request.literalSize = 0 then .tail request [] else .literal request }) := by
  obtain ⟨notIdle, notAwaiting, request, parsed, toSent, fits⟩ := takes
  refine ⟨request, literalSize_of_parseAppend parsed, ?_⟩
  rw [handleLine, notIdle]
  dsimp only
  rw [if_neg (by simp [notAwaiting]), Option.mem_def.mp parsed]
  dsimp only
  rw [beginAppend, if_neg (not_not_intro toSent), if_neg (Nat.not_lt.mpr fits)]

/-- An answer to AUTHENTICATE gets one tagged response. -/
theorem handleAuthResponse_frame {tag : Text} (awaiting : connection.authTag = some tag) (text : Text) :
    (∃ rest : String, 4 ≤ rest.length ∧ (connection.handleAuthResponse text).1 = [tagged tag rest]) ∧
      (connection.handleAuthResponse text).2.reading = connection.reading ∧
      (connection.handleAuthResponse text).2.pending = connection.pending ∧ (connection.session.state ≠ .logout →
        (connection.handleAuthResponse text).2.session.state ≠ .logout) := by
  rw [handleAuthResponse, awaiting]
  dsimp only
  split
  · exact ⟨⟨_, by decide, rfl⟩, rfl, rfl, id⟩
  · split
    · exact ⟨⟨_, by decide, rfl⟩, rfl, rfl, id⟩
    · split
      · exact ⟨⟨_, by decide, rfl⟩, rfl, rfl, id⟩
      · exact ⟨⟨_, by decide, rfl⟩, rfl, rfl, fun _ => by simp [inState]⟩

/-- An APPEND whose literal is not taken: the connection reads lines as before, and the
client is not told to go on. -/
theorem handleLine_not_taken (isLine : connection.reading = .line)
    (live : connection.session.state ≠ .logout) (refused : ¬ connection.TakesLiteral contents line) :
    (connection.handleLine casing contents line.text).2.reading = .line ∧
      (connection.handleLine casing contents line.text).2.pending = connection.pending ∧
      (connection.handleLine casing contents line.text).2.session.state ≠ .logout ∧
      goesAhead (connection.handleLine casing contents line.text).1 = false := by
  have goAhead : (untagged "+ OK").length = 6 := by decide
  have longer : ∀ (tag : Text) (rest : String), 4 ≤ rest.length → goesAhead [tagged tag rest] = false := by
    intro tag rest long
    rw [goesAhead, List.any_cons, List.any_nil, Bool.or_false, decide_eq_false_iff_not]
    intro same
    have lengths := congrArg List.length same
    rw [goAhead, length_tagged] at lengths
    omega
  unfold handleLine
  split
  · rw [handleIdle]
    split
    · exact ⟨isLine, rfl, live, longer _ _ (by decide)⟩
    · exact ⟨isLine, rfl, live, rfl⟩
  next notIdle =>
    split
    next awaiting =>
      obtain ⟨tag, isTag⟩ := Option.isSome_iff_exists.mp awaiting
      obtain ⟨⟨rest, long, answer⟩, sameReading, samePending, stillLive⟩ :=
        handleAuthResponse_frame isTag line.text
      rw [endIfLogout_of_live (stillLive live)]
      refine ⟨sameReading.trans isLine, samePending, stillLive live, ?_⟩
      rw [answer]
      exact longer tag rest long
    next notAwaiting =>
      have none' : connection.authTag = none := by simpa using notAwaiting
      split
      next request isAppend =>
        rw [beginAppend]
        split
        · exact ⟨isLine, rfl, live, longer _ _ (by decide)⟩
        next toSent =>
          split
          · exact ⟨isLine, rfl, live, longer _ _ (by decide)⟩
          next fits =>
            refine absurd ⟨notIdle, none', request, isAppend, not_not.mp toSent, Nat.not_lt.mp fits⟩ refused
      next noAppend =>
        rw [handleCommand, verbOf_append]
        dsimp only
        rw [endIfLogout_of_live live]
        exact ⟨isLine, rfl, live, longer _ _ (by decide)⟩

/-- A connection between two lines, or one that has ended. -/
def Between (connection : Connection) : Prop :=
  connection.reading = .ended ∨
    connection.reading = .line ∧ connection.pending = [] ∧ connection.session.state ≠ .logout

theorem between_endIfLogout {done : List Text × Connection} (isLine : done.2.reading = .line)
    (fresh : done.2.pending = []) : (endIfLogout done).2.Between := by
  rw [endIfLogout]
  split
  · exact .inl rfl
  next live => exact .inr ⟨isLine, fresh, live⟩

/-- A line that is no APPEND leads to the next line. -/
theorem between_handleLine {text : Text} (isLine : connection.reading = .line)
    (fresh : connection.pending = []) (live : connection.session.state ≠ .logout)
    (noAppend : parseAppend text = none) :
    (connection.handleLine casing contents text).2.Between := by
  unfold handleLine
  split
  · rw [handleIdle]
    split <;> exact .inr ⟨isLine, fresh, live⟩
  · split
    next awaiting =>
      obtain ⟨tag, isTag⟩ := Option.isSome_iff_exists.mp awaiting
      obtain ⟨-, sameReading, samePending, -⟩ := handleAuthResponse_frame isTag text
      exact between_endIfLogout (sameReading.trans isLine) (samePending.trans fresh)
    · rw [noAppend]
      obtain ⟨sameReading, samePending⟩ :=
        @handleCommand_frame casing contents connection (parseCommand text)
      exact between_endIfLogout (sameReading.trans isLine) (samePending.trans fresh)

end Append

end Connection

/-! ## Turns -/

theorem lineFeed_not_mem_text (line : AppendLine) : '\n' ∉ line.text := by
  have inCommand : '\n' ∉ line.command := Connection.not_mem_command line (by decide)
  have inMark : '\n' ∉ literalMark line.literal.synchronizing line.literal.octets.length := by
    have inDecimal : '\n' ∉ Text.decimal line.literal.octets.length :=
      Text.not_mem_decimal (by decide)
    rw [literalMark]
    cases line.literal.synchronizing <;> simp [inDecimal]
  simp only [AppendLine.text, List.mem_append, List.mem_cons, not_or]
  exact ⟨line.oneLine.1, by decide, inCommand, by decide, line.oneLine.2, inMark⟩

theorem trimEnd_text (line : AppendLine) : Text.trimEnd (line.text ++ crlf) = line.text := by
  have regroup : ∀ ending : Text, line.text ++ ending =
      (line.tag ++ ' ' :: (line.command ++ ' ' :: (line.arguments ++ '{' ::
        (Text.decimal line.literal.octets.length ++
          if line.literal.synchronizing then [] else ['+'])))) ++ '}' :: ending := by
    intro ending
    simp [AppendLine.text, literalMark]
  have ended : Text.trimEnd crlf = [] := by decide
  rw [regroup, Text.trimEnd_append (by decide), ended, ← regroup, List.append_nil]

/-- What the octets of a literal begin, if they are read as lines. -/
def firstLine (literal : List UInt8) : List UInt8 :=
  (literal ++ Utf8.encode crlf).takeWhile (· ≠ Connection.lineFeed) ++ [Connection.lineFeed]

namespace Watch

/-- The literal of the turn is not read as lines: the client waits with it, it is empty, no
one listens any more, the bridge takes it, or it does not even begin as text. -/
def Safe (bridge : Bridge) (watch : Watch) : Turn → Prop
  | .append line =>
    line.literal.synchronizing = true ∨ line.literal.octets = [] ∨ watch.connection.reading = .ended ∨
      watch.connection.TakesLiteral (bridge.contents watch.connection.moment) line ∨
      Utf8.decode (firstLine line.literal.octets) = none
  | .other _ | .storeChanged => True

/-- Between two turns no octet of a literal is left in the line. -/
def Ready (watch : Watch) : Prop :=
  watch.connection.Between ∧ (watch.connection.reading = .line → watch.touched = false)

section Turns

variable {bridge : Bridge} {watch : Watch}

theorem any_plain (bytes : List UInt8) : (plain bytes).any Prod.snd = false := by
  simp [plain]

theorem map_plain (bytes : List UInt8) : (plain bytes).map Prod.fst = bytes := by
  simp [plain, Function.comp_def]

theorem map_ofLiteral (bytes : List UInt8) : (ofLiteral bytes).map Prod.fst = bytes := by
  simp [ofLiteral, Function.comp_def]

theorem any_ofLiteral {bytes : List UInt8} (someLeft : bytes ≠ []) : (ofLiteral bytes).any Prod.snd = true := by
  obtain ⟨head, rest, rfl⟩ := List.exists_cons_of_ne_nil someLeft
  rfl

theorem plain_concat (bytes : List UInt8) (byte : UInt8) :
    plain (bytes ++ [byte]) = plain bytes ++ [(byte, false)] := by
  simp [plain]

/-- A line of the client without octets of a literal. -/
theorem run_take_plain {bytes : List UInt8} (isLine : watch.connection.reading = .line)
    (fresh : watch.connection.pending = []) (untouched : watch.touched = false)
    (unended : Connection.lineFeed ∉ bytes) :
    run (take bridge) watch (plain (bytes ++ [Connection.lineFeed])) =
      ([], ⟨(Connection.endLine bridge { watch.connection with
        pending := bytes ++ [Connection.lineFeed] }).2, false⟩) := by
  have line := @run_take_line bridge watch (plain bytes) isLine fresh untouched (by rwa [map_plain]) false
  rw [any_plain, map_plain] at line
  rw [plain_concat, line]
  rfl

/-- The line of an APPEND and the answer to it. -/
theorem run_take_text (line : AppendLine) (isLine : watch.connection.reading = .line)
    (fresh : watch.connection.pending = []) (untouched : watch.touched = false) :
    run (take bridge) watch (plain (Utf8.encode (line.text ++ crlf))) =
        ([], ⟨(watch.connection.next.handleLine bridge.casing
          (bridge.contents watch.connection.moment) line.text).2, false⟩) ∧
      (runConnectionLoop bridge watch.connection (octets (Utf8.encode (line.text ++ crlf)))).1 =
        (watch.connection.next.handleLine bridge.casing (bridge.contents watch.connection.moment) line.text).1 := by
  have handled := @runConnectionLoop_text bridge watch.connection isLine fresh line.text
    (lineFeed_not_mem_text line)
  rw [trimEnd_text] at handled
  refine ⟨?_, congrArg Prod.fst handled⟩
  rw [encode_crlf, run_take_plain isLine fresh untouched
    (lineFeed_not_mem_encode (lineFeed_not_mem_text line)), ← encode_crlf, Connection.endLine]
  dsimp only
  rw [Utf8.decode_encode]
  dsimp only
  rw [trimEnd_text]
  rfl

/-- The first line feed of a literal, or of the line end behind it, ends a line with an
octet of the literal. -/
theorem exists_firstLine {literal : List UInt8} (someLeft : literal ≠ []) :
    ∃ first mark rest, ofLiteral literal ++ plain (Utf8.encode crlf) =
        (first ++ [(Connection.lineFeed, mark)]) ++ rest ∧
      Connection.lineFeed ∉ first.map Prod.fst ∧ firstLine literal = first.map Prod.fst ++ [Connection.lineFeed] ∧
      (first.any Prod.snd || mark) = true := by
  have lineEnd : Utf8.encode crlf = [0x0D, Connection.lineFeed] := by decide
  have begins : ∀ {before : List UInt8} (after : List UInt8), Connection.lineFeed ∉ before →
      (before ++ Connection.lineFeed :: after).takeWhile (· ≠ Connection.lineFeed) = before := by
    intro before after absent
    rw [List.takeWhile_append_of_pos, List.takeWhile_cons_of_neg (by simp), List.append_nil]
    intro byte mem
    rw [decide_eq_true_eq]
    exact fun same => absent (same ▸ mem)
  by_cases mem : Connection.lineFeed ∈ literal
  · obtain ⟨before, after, rfl, absent⟩ := List.eq_append_cons_of_mem mem
    refine ⟨ofLiteral before, true, ofLiteral after ++ plain (Utf8.encode crlf), ?_, ?_, ?_, ?_⟩
    · simp [ofLiteral]
    · rwa [map_ofLiteral]
    · rw [firstLine, List.append_assoc, List.cons_append, begins _ absent, map_ofLiteral]
    · rw [Bool.or_true]
  · refine ⟨ofLiteral literal ++ [(0x0D, false)], false, [], ?_, ?_, ?_, ?_⟩
    · rw [lineEnd]
      simp [plain]
    · rw [List.map_append, map_ofLiteral, List.mem_append, not_or]
      exact ⟨mem, by decide⟩
    · have absent : Connection.lineFeed ∉ literal ++ [0x0D] := by
        rw [List.mem_append, not_or]
        exact ⟨mem, by decide⟩
      have first := begins [] absent
      rw [List.append_assoc, List.singleton_append] at first
      rw [firstLine, lineEnd, first, List.map_append, map_ofLiteral]
      rfl
    · rw [List.any_append, any_ofLiteral someLeft]
      rfl

/-- A literal that is not taken is read as lines, if it begins as text. -/
theorem run_take_refused {literal : List UInt8} (isLine : watch.connection.reading = .line)
    (fresh : watch.connection.pending = []) (untouched : watch.touched = false) (someLeft : literal ≠ []) :
    ((run (take bridge) watch (ofLiteral literal ++ plain (Utf8.encode crlf))).1 = [] ↔
        Utf8.decode (firstLine literal) = none) ∧
      (Utf8.decode (firstLine literal) = none → (run (take bridge) watch
          (ofLiteral literal ++ plain (Utf8.encode crlf))).2.connection.reading = .ended) := by
  obtain ⟨first, mark, rest, split, unended, line, touched⟩ := exists_firstLine someLeft
  have taken := @run_take_line bridge watch first isLine fresh untouched unended mark
  rw [split, run_append, taken, touched, ← line]
  cases decoded : Utf8.decode (firstLine literal) with
  | none =>
    have ended : (Connection.endLine bridge { watch.connection with
        pending := firstLine literal }).2.reading = .ended := by
      rw [Connection.endLine]
      dsimp only
      rw [decoded]
      rfl
    obtain ⟨later, stays⟩ := @run_take_ended bridge
      ⟨(Connection.endLine bridge { watch.connection with pending := firstLine literal }).2, false⟩ rest
      ended
    dsimp only
    rw [later, stays]
    exact ⟨iff_of_true rfl rfl, fun _ => ended⟩
  | some text => simp

/-- A literal that the bridge takes is read as one. -/
theorem run_take_taken {request : AppendRequest} {literal : List UInt8}
    (size : request.literalSize = literal.length) (fresh : watch.connection.pending = [])
    (taken : watch.connection.reading =
      if request.literalSize = 0 then .tail request [] else .literal request) :
    ∃ connection, (connection.reading = .line ∨ connection.reading = .ended) ∧
      connection.pending = [] ∧ connection.session = watch.connection.session ∧
      run (take bridge) watch (ofLiteral literal ++ plain (Utf8.encode crlf)) =
        ([], ⟨connection, false⟩) := by
  rcases eq_or_ne literal [] with rfl | someLeft
  · rw [if_pos (show request.literalSize = 0 from size)] at taken
    obtain ⟨reading, linesOrEnd, read⟩ := @run_take_tail bridge watch request [] taken fresh
    exact ⟨{ watch.connection.next with reading := reading }, linesOrEnd, rfl, rfl, read⟩
  · have notEmpty : request.literalSize ≠ 0 := by
      rw [size]
      exact mt List.length_eq_zero_iff.mp someLeft
    rw [if_neg notEmpty] at taken
    have read := @run_take_literal bridge watch request literal taken someLeft
      (by rw [fresh, List.nil_append, size])
    obtain ⟨reading, linesOrEnd, tail⟩ := @run_take_tail bridge
      ⟨{ watch.connection with reading := .tail request (watch.connection.pending ++ literal), pending := [] },
        false⟩ request _ rfl rfl
    refine ⟨{ watch.connection.next with reading := reading }, linesOrEnd, rfl, rfl, ?_⟩
    rw [run_append, read]
    dsimp only
    rw [tail, List.nil_append]
    rfl

theorem ready_of_ended (ended : watch.connection.reading = .ended) : watch.Ready :=
  ⟨.inl ended, fun isLine => by rw [ended] at isLine; cases isLine⟩

/-- An APPEND behind which the literal is read as one, as lines, or not at all. -/
theorem takeTurn_append (line : AppendLine) (isLine : watch.connection.reading = .line)
    (fresh : watch.connection.pending = []) (untouched : watch.touched = false)
    (live : watch.connection.session.state ≠ .logout) :
    ((takeTurn bridge watch (.append line)).1 = [] ↔ watch.Safe bridge (.append line)) ∧
      (watch.Safe bridge (.append line) → (takeTurn bridge watch (.append line)).2.Ready) := by
  obtain ⟨announced, answer⟩ := @run_take_text bridge watch line isLine fresh untouched
  have nextFresh : watch.connection.next.pending = [] := rfl
  rw [takeTurn]
  dsimp only
  rw [announced, answer]
  by_cases takes : watch.connection.TakesLiteral (bridge.contents watch.connection.moment) line
  · obtain ⟨request, size, handled⟩ :=
      @Connection.handleLine_taken bridge.casing _ watch.connection.next line takes
    rw [handled]
    have toldSo : goesAhead [untagged "+ OK"] = true := by decide
    rw [if_neg (fun both => both.2 toldSo)]
    obtain ⟨connection, linesOrEnd, nowFresh, sameSession, read⟩ :=
      @run_take_taken bridge ⟨{ watch.connection.next with
        reading := if request.literalSize = 0 then .tail request [] else .literal request }, false⟩
        request line.literal.octets size rfl rfl
    dsimp only
    rw [read]
    have safe : watch.Safe bridge (.append line) := .inr (.inr (.inr (.inl takes)))
    refine ⟨iff_of_true rfl safe, fun _ => ⟨?_, fun _ => rfl⟩⟩
    rcases linesOrEnd with nowLine | ended
    · refine .inr ⟨nowLine, nowFresh, ?_⟩
      rw [sameSession]
      exact live
    · exact .inl ended
  · obtain ⟨nowLine, nowFresh, nowLive, notTold⟩ :=
      @Connection.handleLine_not_taken bridge.casing _ watch.connection.next line isLine live takes
    generalize watch.connection.next.handleLine bridge.casing
      (bridge.contents watch.connection.moment) line.text = handled at nowLine nowFresh nowLive notTold
    by_cases waits : line.literal.synchronizing = true
    · rw [if_pos ⟨waits, by rw [notTold]; exact Bool.false_ne_true⟩]
      exact ⟨iff_of_true rfl (.inl waits), fun _ => ⟨.inr ⟨nowLine, nowFresh, nowLive⟩, fun _ => rfl⟩⟩
    · rw [if_neg (fun both => waits both.1)]
      dsimp only
      rcases eq_or_ne line.literal.octets [] with isEmpty | someLeft
      · have lineEnd : Utf8.encode crlf = [0x0D] ++ [Connection.lineFeed] := by decide
        have blank : Utf8.decode [0x0D, Connection.lineFeed] = some crlf := by decide
        have noText : parseAppend (Text.trimEnd crlf) = none := by decide
        have read := @run_take_plain bridge ⟨handled.2, false⟩ [0x0D] nowLine nowFresh rfl (by decide)
        rw [isEmpty, ofLiteral, List.map_nil, List.nil_append, List.nil_append, lineEnd, read]
        refine ⟨iff_of_true rfl (.inr (.inl isEmpty)), fun _ => ⟨?_, fun _ => rfl⟩⟩
        rw [Connection.endLine]
        dsimp only
        rw [List.singleton_append, blank]
        exact Connection.between_handleLine nowLine rfl nowLive noText
      · obtain ⟨silentIff, ends⟩ :=
          @run_take_refused bridge ⟨handled.2, false⟩ _ nowLine nowFresh rfl someLeft
        have safeIff : watch.Safe bridge (.append line) ↔
            Utf8.decode (firstLine line.literal.octets) = none := by
          refine ⟨?_, fun noText => .inr (.inr (.inr (.inr noText)))⟩
          rintro (synchronizing | isEmpty | ended | taken | noText)
          · exact absurd synchronizing waits
          · exact absurd isEmpty someLeft
          · rw [isLine] at ended
            cases ended
          · exact absurd taken takes
          · exact noText
        rw [safeIff, List.nil_append]
        exact ⟨silentIff, fun noText => ready_of_ended (ends noText)⟩

/-- A turn has no octet of a literal read as part of a line exactly when it is safe, and a
safe turn ends between two lines. -/
theorem takeTurn_silent_iff (ready : watch.Ready) (turn : Turn) :
    ((takeTurn bridge watch turn).1 = [] ↔ watch.Safe bridge turn) ∧
      (watch.Safe bridge turn → (takeTurn bridge watch turn).2.Ready) := by
  obtain ⟨ended | ⟨isLine, fresh, live⟩, untouched⟩ := ready
  · cases turn with
    | append line =>
      obtain ⟨announced, stays⟩ :=
        @run_take_ended bridge watch (plain (Utf8.encode (line.text ++ crlf))) ended
      have safe : watch.Safe bridge (.append line) := .inr (.inr (.inl ended))
      rw [takeTurn]
      dsimp only
      split
      · exact ⟨iff_of_true announced safe, fun _ => ready_of_ended (stays ▸ ended)⟩
      · obtain ⟨sent, staysToo⟩ := @run_take_ended bridge _
          (ofLiteral line.literal.octets ++ plain (Utf8.encode crlf)) (stays ▸ ended)
        rw [announced, sent]
        exact ⟨iff_of_true rfl safe, fun _ => ready_of_ended ((staysToo.trans stays) ▸ ended)⟩
    | other line =>
      obtain ⟨silent, stays⟩ :=
        @run_take_ended bridge watch (plain (line.octets ++ [Connection.lineFeed])) ended
      exact ⟨iff_of_true silent trivial, fun _ => ready_of_ended (stays ▸ ended)⟩
    | storeChanged =>
      refine ⟨iff_of_true rfl trivial, fun _ => ready_of_ended ?_⟩
      have kept := @Connection.receive_ended bridge watch.connection ended .storeChanged
      rw [Connection.receive] at kept
      rw [takeTurn]
      dsimp only
      rw [kept]
      exact ended
  · cases turn with
    | append line => exact takeTurn_append line isLine fresh (untouched isLine) live
    | other line =>
      have read := @run_take_plain bridge watch line.octets isLine fresh (untouched isLine) line.oneLine
      rw [takeTurn, read]
      refine ⟨iff_of_true rfl trivial, fun _ => ⟨?_, fun _ => rfl⟩⟩
      rw [Connection.endLine]
      dsimp only
      split
      · exact .inl rfl
      next text decoded =>
        exact Connection.between_handleLine isLine rfl live (line.noAppend text decoded)
    | storeChanged =>
      refine ⟨iff_of_true rfl trivial, fun _ => ?_⟩
      rw [takeTurn, Connection.receiveChange]
      split
      · refine ⟨.inr ⟨isLine, rfl, ?_⟩, fun _ => untouched isLine⟩
        dsimp only
        rw [(Connection.checkNewMail_state _ _ _).1]
        exact live
      · exact ⟨.inr ⟨isLine, fresh, live⟩, untouched⟩

end Turns

end Watch

/-- In a session no octet of a literal is read as part of a line exactly when every turn of
it is safe: when each literal that is sent at once is taken by the bridge, or is empty, or
begins with a line that is no text. -/
theorem literals_unread_iff (bridge : Bridge) (passwordHash : Option String) (turns : List Turn) :
    (run (Watch.takeTurn bridge) ⟨.opened passwordHash, false⟩ turns).1 = [] ↔
      Guarded (after (Watch.takeTurn bridge)) (Watch.Safe bridge) ⟨.opened passwordHash, false⟩ turns := by
  have ready : Watch.Ready ⟨.opened passwordHash, false⟩ := by
    refine ⟨.inr ⟨rfl, rfl, ?_⟩, fun _ => rfl⟩
    intro impossible
    cases impossible
  exact run_silent_iff Watch.Ready (fun _ turn ready => (Watch.takeTurn_silent_iff ready turn).1)
    (fun _ turn ready => (Watch.takeTurn_silent_iff ready turn).2) ready turns

/-- A message for Drafts, sent at once: its first line is a command. -/
def draft : AppendLine where
  tag := "a".toList
  command := "APPEND".toList
  arguments := "Drafts ".toList
  literal := ⟨false, Utf8.encode "b LOGOUT".toList⟩
  tagSolid := by decide
  isAppend := by decide
  oneLine := by decide

/-- The message for Drafts is read as a command. -/
theorem draft_is_read_as_command :
    (run (Watch.takeTurn (.fixed .empty)) ⟨.opened (some "secret"), false⟩ [.append draft]).1 ≠ [] := by
  decide +kernel

end TutaBridge.Imap
