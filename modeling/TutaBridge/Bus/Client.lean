import TutaBridge.Bus.Address
import TutaBridge.Bus.Messages
import TutaBridge.Std.Steps

/-!
# The event bus client

`run` connects, reads frames until the connection is lost, waits and connects again. Around it
the server answers or refuses, frames come in, the heartbeat fires, the handler moves the
cursors, and someone may ask it to stop. It ends only when it is told to, when nobody reads its
messages, or when the server rejects the session.
-/

namespace TutaBridge.Bus

open TutaBridge.Std Tuta

/-! ## After a connection -/

/-- `WsState`. -/
inductive WsState where
  | stopped
  | connecting
  | connected
  | reconnecting
deriving DecidableEq, Repr

/-- `CloseAction`. -/
inductive CloseAction where
  | terminate (code : Nat)
  | suspend
  | reconnect (interval : Nat × Nat)
deriving DecidableEq, Repr

def normalShutdown : Nat := 1
def notAuthorized : Nat := 401
def sessionExpired : Nat := 440
def tooManyRequests : Nat := 429
def accessDeactivated : Nat := 470
def accessBlocked : Nat := 472

def reconnectSmall : Nat × Nat := (5, 10)
def reconnectMedium : Nat × Nat := (20, 40)
def reconnectLarge : Nat × Nat := (60, 120)

/-- `close_action`. -/
def closeAction (serverCode : Nat) : CloseAction :=
  let code := if 4000 ≤ serverCode then serverCode - 4000 else serverCode
  if code ∈ [notAuthorized, accessDeactivated, accessBlocked, tooManyRequests] then .terminate code
  else if code = sessionExpired then .suspend
  else if code = normalShutdown then .reconnect reconnectLarge
  else .reconnect reconnectSmall

/-- `reconnect_interval`. -/
def reconnectInterval (failedAttempts : Nat) (close : Option CloseAction) : Nat × Nat :=
  match close with
  | some (.reconnect interval) => interval
  | _ =>
    if failedAttempts ≤ 1 then reconnectSmall
    else if failedAttempts = 2 then reconnectMedium
    else reconnectLarge

/-- `pick_random`, with the nanoseconds the clock shows. -/
def pickRandom (nanos lo hi : Nat) : Nat := if hi ≤ lo then lo else lo + nanos % (hi - lo + 1)

/-! ## The run -/

/-- A frame of the server. A close frame may carry a code. -/
inductive Frame where
  | text (text : Text)
  | ping (payload : List UInt8)
  | pong (payload : List UInt8)
  | close (code : Option Nat)
  | binary
deriving DecidableEq, Repr

/-- A frame of the client. -/
inductive Reply where
  | ping
  | pong (payload : List UInt8)
  | close
deriving DecidableEq, Repr

/-- Where `run` is: at the head of its loop, or at one of its three awaits, or it returned. -/
inductive Phase where
  | looping
  | connecting
  | reading
  | waiting (interval : Nat × Nat) (seconds : Nat)
  | ended (error : EventBusError)
deriving DecidableEq, Repr

/-- A run of the client: its variables, what it shares, and what it has done so far. -/
structure BusRun where
  phase : Phase
  failedAttempts : Nat
  shutdown : Bool
  lastBatchIds : List (Text × Text)
  published : List WsState
  messages : List EventBusMessage
  replies : List Reply
  addresses : List Text

/-- What happens. `nanos` is the time of the clock where the client picks how long it waits.
A message is taken unless the receiver is gone, and a heartbeat is written or fails. -/
inductive BusMove where
  | raise
  | cursors (lastBatchIds : List (Text × Text))
  | attempt
  | connected
  | refused (nanos : Nat)
  | stop
  | heartbeat (written : Bool) (nanos : Nat)
  | frame (frame : Frame) (taken : Bool) (nanos : Nat)
  | frameError (nanos : Nat)
  | streamEnd (nanos : Nat)
  | idle (nanos : Nat)
  | slept
deriving DecidableEq, Repr

/-- What `run` is given. -/
structure BusSettings where
  client : EventBusClient
  decoder : Decoder
  accessToken : Text
  userId : Text

namespace BusRun

/-- `run` is called with the cursors that were loaded. -/
def start (lastBatchIds : List (Text × Text)) : BusRun where
  phase := .looping
  failedAttempts := 0
  shutdown := false
  lastBatchIds
  published := [.stopped]
  messages := []
  replies := []
  addresses := []

/-- `run` returns, and the guard announces it. -/
def finish (run : BusRun) (error : EventBusError) : BusRun :=
  { run with phase := .ended error, published := run.published ++ [.stopped] }

/-- A failed attempt or a lost connection, and the wait that follows. -/
def fail (run : BusRun) (close : Option CloseAction) (nanos : Nat) : BusRun :=
  let failedAttempts := min (run.failedAttempts + 1) (2 ^ 32 - 1)
  let interval := reconnectInterval failedAttempts close
  { run with
    phase := .waiting interval (pickRandom nanos interval.1 interval.2)
    failedAttempts
    published := run.published ++ [.reconnecting] }

section Step

variable (settings : BusSettings)

/-- A frame that was read. -/
def receive (run : BusRun) (frame : Frame) (taken : Bool) (nanos : Nat) : BusRun :=
  match frame with
  | .text text =>
    match parseMessage settings.decoder text with
    | .ok message =>
      if taken then { run with messages := run.messages ++ [message] } else run.finish .stopped
    | .error _ => run
  | .ping payload => { run with replies := run.replies ++ [.pong payload] }
  | .pong _ => run
  | .close code =>
    match closeAction (code.getD 0) with
    | .terminate code => run.finish (.authenticationRejected code)
    | action => run.fail (some action) nanos
  | .binary => run

/-- `EventBusClient::run`, with the tasks around it. -/
def step (run : BusRun) (move : BusMove) : Option BusRun :=
  match move, run.phase with
  | .raise, _ => some { run with shutdown := true }
  | .cursors lastBatchIds, _ => some { run with lastBatchIds }
  | .attempt, .looping =>
    if run.shutdown then some (run.finish .stopped)
    else
      some { run with
        phase := .connecting
        published := run.published ++ [.connecting]
        addresses := run.addresses ++
          [buildWsUrl settings.client settings.accessToken settings.userId run.lastBatchIds] }
  -- The select is biased: what the server answers counts only while nobody asked to stop.
  | .connected, .connecting =>
    if run.shutdown then none
    else
      some { run with
        phase := .reading
        failedAttempts := 0
        published := run.published ++ [.connected] }
  | .refused nanos, .connecting => if run.shutdown then none else some (run.fail none nanos)
  | .stop, .connecting => if run.shutdown then some (run.finish .stopped) else none
  | .stop, .reading =>
    if run.shutdown then some (finish { run with replies := run.replies ++ [.close] } .stopped) else none
  | .stop, .waiting _ _ => if run.shutdown then some (run.finish .stopped) else none
  | .heartbeat true _, .reading => some { run with replies := run.replies ++ [.ping] }
  | .heartbeat false nanos, .reading => some (run.fail none nanos)
  | .frame frame taken nanos, .reading => some (run.receive settings frame taken nanos)
  | .frameError nanos, .reading => some (run.fail none nanos)
  | .streamEnd nanos, .reading => some (run.fail none nanos)
  | .idle nanos, .reading => some (run.fail none nanos)
  | .slept, .waiting _ _ => some { run with phase := .looping }
  | _, _ => none

end Step

end BusRun

/-! ## What a move does -/

/-- A move that loses the connection or an attempt at one: what the server said as it closed
the connection, and the time. -/
def failing : BusMove → Option (Option CloseAction × Nat)
  | .refused nanos | .heartbeat false nanos | .frameError nanos | .streamEnd nanos | .idle nanos =>
    some (none, nanos)
  | .frame (.close code) _ nanos =>
    match closeAction (code.getD 0) with
    | .terminate _ => none
    | action => some (some action, nanos)
  | _ => none

/-- The message of a text frame that was handed on. -/
def received (decoder : Decoder) : BusMove → Option EventBusMessage
  | .frame (.text text) true _ => (parseMessage decoder text).toOption
  | _ => none

/-- The payload of a ping of the server. -/
def pinged : BusMove → Option (List UInt8)
  | .frame (.ping payload) _ _ => some payload
  | _ => none

/-- The payload of an answer to a ping. -/
def Reply.pong? : Reply → Option (List UInt8)
  | .pong payload => some payload
  | _ => none

namespace BusRun

section Moves

variable {settings : BusSettings}

/-- What a step does, by the kind of the move. -/
inductive Moves (settings : BusSettings) (run : BusRun) : BusMove → BusRun → Prop where
  | raise : Moves settings run .raise { run with shutdown := true }
  | cursors (lastBatchIds : List (Text × Text)) :
      Moves settings run (.cursors lastBatchIds) { run with lastBatchIds }
  | attempt (looping : run.phase = .looping) (notTold : run.shutdown = false) :
      Moves settings run .attempt { run with
        phase := .connecting
        published := run.published ++ [.connecting]
        addresses := run.addresses ++
          [buildWsUrl settings.client settings.accessToken settings.userId run.lastBatchIds] }
  | decline (looping : run.phase = .looping) (told : run.shutdown = true) :
      Moves settings run .attempt (run.finish .stopped)
  | connected (connecting : run.phase = .connecting) (notTold : run.shutdown = false) :
      Moves settings run .connected { run with
        phase := .reading
        failedAttempts := 0
        published := run.published ++ [.connected] }
  | failed {move : BusMove} {close : Option CloseAction} {nanos : Nat} (fails : failing move = some (close, nanos))
      (busy : run.phase = .connecting ∨ run.phase = .reading) :
      Moves settings run move (run.fail close nanos)
  | stop {replies : List Reply} (told : run.shutdown = true)
      (waits : run.phase = .connecting ∨ run.phase = .reading ∨ ∃ interval seconds, run.phase = .waiting interval seconds)
      (noPong : replies.filterMap Reply.pong? = []) :
      Moves settings run .stop (finish { run with replies := run.replies ++ replies } .stopped)
  | heartbeat {nanos : Nat} (reading : run.phase = .reading) :
      Moves settings run (.heartbeat true nanos) { run with replies := run.replies ++ [.ping] }
  | message {text : Text} {message : EventBusMessage} {nanos : Nat} (reading : run.phase = .reading)
      (parsed : parseMessage settings.decoder text = .ok message) :
      Moves settings run (.frame (.text text) true nanos) { run with messages := run.messages ++ [message] }
  | unread {text : Text} {nanos : Nat} (reading : run.phase = .reading) :
      Moves settings run (.frame (.text text) false nanos) (run.finish .stopped)
  | pong {payload : List UInt8} {taken : Bool} {nanos : Nat} (reading : run.phase = .reading) :
      Moves settings run (.frame (.ping payload) taken nanos) { run with replies := run.replies ++ [.pong payload] }
  | skip {frame : Frame} {taken : Bool} {nanos : Nat} (reading : run.phase = .reading)
      (noPing : pinged (.frame frame taken nanos) = none)
      (noMessage : received settings.decoder (.frame frame taken nanos) = none)
      (noClose : ∀ code, frame ≠ .close code) :
      Moves settings run (.frame frame taken nanos) run
  | rejected {code : Option Nat} {taken : Bool} {nanos status : Nat} (reading : run.phase = .reading)
      (verdict : closeAction (code.getD 0) = .terminate status) :
      Moves settings run (.frame (.close code) taken nanos) (run.finish (.authenticationRejected status))
  | slept {interval : Nat × Nat} {seconds : Nat} (waited : run.phase = .waiting interval seconds) :
      Moves settings run .slept { run with phase := .looping }

variable {run next : BusRun} {move : BusMove}

theorem moves_of_receive {frame : Frame} {taken : Bool} {nanos : Nat} (reading : run.phase = .reading) :
    Moves settings run (.frame frame taken nanos) (run.receive settings frame taken nanos) := by
  cases frame with
  | text text =>
    rw [receive]
    cases parsed : parseMessage settings.decoder text with
    | ok message =>
      cases taken with
      | true => exact .message reading parsed
      | false => exact .unread reading
    | error => exact .skip reading rfl (by cases taken <;> simp [received, parsed, Except.toOption]) (by simp)
  | ping payload => exact .pong reading
  | pong => exact .skip reading rfl rfl (by simp)
  | close code =>
    rw [receive]
    cases verdict : closeAction (code.getD 0) with
    | terminate status => exact .rejected reading verdict
    | suspend => exact .failed (by rw [failing, verdict]) (.inr reading)
    | reconnect => exact .failed (by rw [failing, verdict]) (.inr reading)
  | binary => exact .skip reading rfl rfl (by simp)

/-- A step does what its move says. -/
theorem moves_of_step (stepped : run.step settings move = some next) : Moves settings run move next := by
  unfold step at stepped
  split at stepped
  case h_1 => exact Option.some.inj stepped ▸ .raise
  case h_2 lastBatchIds => exact Option.some.inj stepped ▸ .cursors lastBatchIds
  case h_3 looping =>
      split at stepped
      next told => exact Option.some.inj stepped ▸ .decline looping told
      next notTold => exact Option.some.inj stepped ▸ .attempt looping (eq_false_of_ne_true notTold)
  case h_4 connecting =>
      split at stepped
      next => cases stepped
      next notTold => exact Option.some.inj stepped ▸ .connected connecting (eq_false_of_ne_true notTold)
  case h_5 connecting =>
      split at stepped
      next => cases stepped
      next => exact Option.some.inj stepped ▸ .failed rfl (.inl connecting)
  case h_6 connecting =>
      split at stepped
      next told =>
        have moves := @Moves.stop settings run [] told (.inl connecting) rfl
        rw [List.append_nil] at moves
        exact Option.some.inj stepped ▸ moves
      next => cases stepped
  case h_7 reading =>
      split at stepped
      next told => exact Option.some.inj stepped ▸ .stop told (.inr (.inl reading)) rfl
      next => cases stepped
  case h_8 interval seconds waiting =>
      split at stepped
      next told =>
        have moves := @Moves.stop settings run [] told (.inr (.inr ⟨interval, seconds, waiting⟩)) rfl
        rw [List.append_nil] at moves
        exact Option.some.inj stepped ▸ moves
      next => cases stepped
  case h_9 reading => exact Option.some.inj stepped ▸ .heartbeat reading
  case h_10 reading => exact Option.some.inj stepped ▸ .failed rfl (.inr reading)
  case h_11 reading => exact Option.some.inj stepped ▸ moves_of_receive reading
  case h_12 reading => exact Option.some.inj stepped ▸ .failed rfl (.inr reading)
  case h_13 reading => exact Option.some.inj stepped ▸ .failed rfl (.inr reading)
  case h_14 reading => exact Option.some.inj stepped ▸ .failed rfl (.inr reading)
  case h_15 waiting => exact Option.some.inj stepped ▸ .slept waiting
  case h_16 => cases stepped

end Moves

end BusRun

end TutaBridge.Bus
