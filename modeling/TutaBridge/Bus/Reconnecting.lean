import TutaBridge.Bus.Client

/-!
# Runs of the event bus client

What holds of a run whatever happens around it: the handler gets the messages of the frames
that came in, in their order; the client goes on until it is told to stop, nobody reads its
messages or the server rejects the session; it waits by the failures since it was last
connected, or as the server asked; and once told to stop it connects no more.
-/

namespace TutaBridge.Bus.BusRun

open TutaBridge.Std Tuta

variable (schedule : List BusMove) {interval : Nat × Nat}

variable {settings : BusSettings} {run next final : BusRun} {move : BusMove} {schedule : List BusMove}
  {lastBatchIds : List (Text × Text)}

/-! ## Messages -/

/-- A move that fails hands on no message and is no ping. -/
theorem silent_of_failing {close : Option CloseAction} {nanos : Nat} (fails : failing move = some (close, nanos)) :
    received settings.decoder move = none ∧ pinged move = none := by
  cases move with
  | frame frame taken =>
    cases frame with
    | close => exact ⟨rfl, rfl⟩
    | text => cases fails
    | ping => cases fails
    | pong => cases fails
    | binary => cases fails
  | refused => exact ⟨rfl, rfl⟩
  | heartbeat => exact ⟨rfl, rfl⟩
  | frameError => exact ⟨rfl, rfl⟩
  | streamEnd => exact ⟨rfl, rfl⟩
  | idle => exact ⟨rfl, rfl⟩
  | raise => cases fails
  | cursors => cases fails
  | attempt => cases fails
  | connected => cases fails
  | stop => cases fails
  | slept => cases fails

theorem messages_of_moves (moves : Moves settings run move next) :
    next.messages = run.messages ++ (received settings.decoder move).toList := by
  cases moves with
  | failed fails => simp [fail, (silent_of_failing fails).1]
  | message reading parsed => simp [received, parsed, Except.toOption]
  | skip reading noPing noMessage => simp [noMessage]
  | _ => simp [received, finish]

theorem pongs_of_moves (moves : Moves settings run move next) :
    next.replies.filterMap Reply.pong? = run.replies.filterMap Reply.pong? ++ (pinged move).toList := by
  cases moves with
  | failed fails => simp [fail, (@silent_of_failing settings _ _ _ fails).2]
  | stop told waits noPong => simp [finish, pinged, noPong]
  | skip reading noPing => simp [noPing]
  | _ => simp [finish, pinged, Reply.pong?]

/-- The text of a frame that was handed on. -/
def textFrame : BusMove → Option Text
  | .frame (.text text) true _ => some text
  | _ => none

theorem received_eq (decoder : Decoder) (move : BusMove) :
    received decoder move = (textFrame move).bind fun text => (parseMessage decoder text).toOption := by
  cases move with
  | frame frame taken =>
    cases frame with
    | text => cases taken <;> rfl
    | _ => rfl
  | _ => rfl

/-- The handler gets the messages of all text frames that can be read, each once and in the order
they came in, over however many connections; every ping is answered once, in order, with its own
payload. So if the frames are batches, written as their documents, it gets these batches. -/
theorem forwards_in_order (steps : Steps (step settings) (start lastBatchIds) schedule final) :
    final.messages = schedule.filterMap (received settings.decoder) ∧
      final.replies.filterMap Reply.pong? = schedule.filterMap pinged ∧
      ∀ sent : List (Text × EntityUpdateBatch),
        schedule.filterMap textFrame = sent.map (fun item => frameOf "entityUpdate" item.1) →
        (∀ item ∈ sent, ∃ document, settings.decoder.fromStr item.1 = .ok document ∧ IsBatch document item.2) →
        final.messages = sent.map fun item => .entityUpdate item.2 := by
  have forwarded := steps.view_eq_append messages fun _ _ _ stepped => messages_of_moves (moves_of_step stepped)
  have answered := steps.view_eq_append (fun run => run.replies.filterMap Reply.pong?) fun _ _ _ stepped =>
    pongs_of_moves (moves_of_step stepped)
  refine ⟨forwarded, answered, fun sent frames documents => ?_⟩
  have parsed : ∀ item ∈ sent, (parseMessage settings.decoder (frameOf "entityUpdate" item.1)).toOption =
      some (.entityUpdate item.2) := by
    intro item mem
    rw [parseMessage_frame_iff.mpr (documents item mem)]
    rfl
  have split : schedule.filterMap (received settings.decoder) =
      (schedule.filterMap textFrame).filterMap fun text => (parseMessage settings.decoder text).toOption := by
    rw [List.filterMap_filterMap]
    exact List.filterMap_congr fun move _ => received_eq settings.decoder move
  have start : (start lastBatchIds).messages = [] := rfl
  rw [forwarded, start, List.nil_append, split, frames, List.filterMap_map]
  rw [List.filterMap_congr (g := fun item => some (.entityUpdate item.2)) parsed]
  simp

/-- A batch that says a mail was created. -/
def oneBatch : EntityUpdateBatch :=
  ⟨"b1", "g1", [⟨"tutanota", 97, "list", "mail", .create, none, none⟩]⟩

/-- A client whose decoder knows the document of that batch. -/
def oneBatchSettings : BusSettings where
  client := ⟨"https://app.tuta.com".toList, 155, 99, "v".toList, []⟩
  decoder :=
    { fromStr := fun text =>
        if text = "{...}".toList then .ok (writtenBatch oneBatch) else .error "expected value"
      intError := fun _ => "invalid digit found in string" }
  accessToken := "token".toList
  userId := "me".toList

/-- A batch, a lost connection, and a ping and the batch again. -/
def twoConnections : List BusMove :=
  [.attempt, .connected, .frame (.text (frameOf "entityUpdate" "{...}".toList)) true 0, .streamEnd 0, .slept,
    .attempt, .connected, .frame (.ping [7]) true 0, .frame (.text (frameOf "entityUpdate" "{...}".toList)) true 0]

theorem forwards_over_two_connections : ∃ final, Steps (step oneBatchSettings) (start []) twoConnections final ∧
      final.messages = [.entityUpdate oneBatch, .entityUpdate oneBatch] ∧
      final.replies.filterMap Reply.pong? = [[7]] := by
  have ran : ∃ final, Steps (step oneBatchSettings) (start []) twoConnections final ∧ True :=
    Steps.exists_of_any (fun _ => True) (by decide +kernel)
  obtain ⟨final, steps, -⟩ := ran
  obtain ⟨-, answered, batches⟩ := forwards_in_order steps
  have read : parseEntityUpdateBatch oneBatchSettings.decoder "{...}".toList = .ok oneBatch := by decide +kernel
  have document := parseEntityUpdateBatch_eq_ok_iff.mp read
  refine ⟨final, steps, batches [("{...}".toList, oneBatch), ("{...}".toList, oneBatch)] (by decide +kernel) ?_,
    answered.trans (by decide)⟩
  exact List.forall_mem_cons.mpr ⟨document, List.forall_mem_singleton.mpr document⟩

/-! ## Requests -/

/-- The cursors the run asks with: at each attempt those that were set last, until it is told to
stop. -/
def requested (lastBatchIds : List (Text × Text)) (told : Bool) : List BusMove → List (List (Text × Text))
  | [] => []
  | .cursors newer :: rest => requested newer told rest
  | .raise :: rest => requested lastBatchIds true rest
  | .attempt :: rest =>
    if told then requested lastBatchIds told rest else lastBatchIds :: requested lastBatchIds told rest
  | _ :: rest => requested lastBatchIds told rest

theorem addresses_of_steps (steps : Steps (step settings) run schedule final) :
    final.addresses = run.addresses ++ (requested run.lastBatchIds run.shutdown schedule).map
      fun lastBatchIds => buildWsUrl settings.client settings.accessToken settings.userId lastBatchIds := by
  induction steps with
  | nil => simp [requested]
  | @cons run next _ move rest first _ ih =>
    rw [ih]
    cases moves_of_step first with
    | attempt looping notTold => simp [requested, notTold]
    | decline looping told => simp [requested, told, finish]
    | failed fails =>
      cases move with
      | attempt => cases fails
      | raise => cases fails
      | cursors => cases fails
      | _ => rfl
    | _ => simp [requested, finish]

/-- The cursors that are asked with were set. -/
theorem mem_requested {told : Bool} {asked : List (Text × Text)}
    (mem : asked ∈ requested lastBatchIds told schedule) : asked = lastBatchIds ∨ .cursors asked ∈ schedule := by
  induction schedule generalizing lastBatchIds told with
  | nil => cases mem
  | cons move rest ih =>
    have later : ∀ {told lastBatchIds}, asked ∈ requested lastBatchIds told rest →
        asked = lastBatchIds ∨ .cursors asked ∈ move :: rest := fun mem =>
      (ih mem).imp_right (List.mem_cons_of_mem _)
    cases move with
    | cursors newer =>
      obtain rfl | isLater := later mem
      · exact .inr List.mem_cons_self
      · exact .inr isLater
    | raise => exact later mem
    | attempt =>
      rw [requested] at mem
      split_ifs at mem
      · exact later mem
      · obtain rfl | inRest := List.mem_cons.mp mem
        · exact .inl rfl
        · exact later inRest
    | _ => exact later mem

/-- Every connection is asked for with the session of the run and with the cursors as the handler left
them, so that the server can go on behind the last batch that was processed; and none is asked for
once the run is told to stop. -/
theorem resumes_from_cursors (steps : Steps (step settings) (start lastBatchIds) schedule final)
    (noQuery : '?' ∉ settings.client.baseUrl)
    (areIds : ∀ cursors, cursors = lastBatchIds ∨ .cursors cursors ∈ schedule → ∀ id ∈ cursors, IsId id.1 ∧ IsId id.2) :
    final.addresses.map readRequest = (requested lastBatchIds false schedule).map
      fun cursors => some (requestOf settings.client settings.accessToken settings.userId cursors) := by
  have addresses := addresses_of_steps steps
  rw [addresses, start, List.nil_append, List.map_map]
  exact List.map_congr_left fun cursors mem =>
    (readRequest_buildWsUrl settings.client settings.accessToken settings.userId noQuery
      (areIds cursors (mem_requested mem))).1

/-- The handler processes a batch between two connections. -/
theorem resumes_behind_first_batch : ∃ final, Steps (step oneBatchSettings) (start [])
        [.attempt, .connected, .cursors [("g1".toList, "b1".toList)], .idle 0, .slept, .attempt] final ∧
      final.addresses.map readRequest =
        [some (requestOf oneBatchSettings.client "token".toList "me".toList []),
          some (requestOf oneBatchSettings.client "token".toList "me".toList [("g1".toList, "b1".toList)])] := by
  have ran : ∃ final, Steps (step oneBatchSettings) (start [])
      [.attempt, .connected, .cursors [("g1".toList, "b1".toList)], .idle 0, .slept, .attempt] final ∧ True :=
    Steps.exists_of_any (fun _ => True) (by decide +kernel)
  obtain ⟨final, steps, -⟩ := ran
  refine ⟨final, steps, resumes_from_cursors steps (by decide) ?_⟩
  intro cursors isSet
  have known : cursors = [] ∨ cursors = [("g1".toList, "b1".toList)] := by simpa using isSet
  obtain rfl | rfl := known
  · exact nofun
  · decide +kernel

/-! ## Attempts -/

/-- The failures since the client was last connected. -/
def failures (schedule : List BusMove) : Nat :=
  ((schedule.reverse.takeWhile (· ≠ .connected)).filterMap failing).length

/-- A failure more, or none after a connection, as a `u32` counts them. -/
def countFailure (count : Nat) (move : BusMove) : Nat :=
  if move = .connected then 0
  else if (failing move).isSome then min (count + 1) (2 ^ 32 - 1)
  else count

theorem failures_concat (move : BusMove) : failures (schedule ++ [move]) =
      if move = .connected then 0
      else if (failing move).isSome then failures schedule + 1
      else failures schedule := by
  rw [failures, List.reverse_append, List.reverse_singleton, List.singleton_append, List.takeWhile_cons]
  by_cases connects : move = .connected
  · simp [connects]
  · cases fails : failing move <;> simp [connects, fails, failures]

theorem foldl_countFailure : schedule.foldl countFailure 0 = min (failures schedule) (2 ^ 32 - 1) := by
  induction schedule using List.reverseRecOn with
  | nil => rfl
  | append_singleton schedule move ih =>
    rw [List.foldl_concat, ih, failures_concat, countFailure]
    split_ifs
    · rfl
    · omega
    · rfl

theorem failedAttempts_of_moves (moves : Moves settings run move next) :
    next.failedAttempts = countFailure run.failedAttempts move := by
  cases moves with
  | failed fails =>
    have notConnected : move ≠ .connected := by
      rintro rfl
      cases fails
    simp [countFailure, notConnected, fails, fail]
  | skip reading noPing noMessage noClose =>
    rename_i frame taken nanos
    cases frame with
    | close code => exact absurd rfl (noClose code)
    | _ => rfl
  | rejected reading verdict => simp [countFailure, failing, verdict, finish]
  | _ => simp [countFailure, failing, finish]

/-- The client has counted the failures since it was last connected. -/
theorem failedAttempts_eq (steps : Steps (step settings) (start lastBatchIds) schedule final) :
    final.failedAttempts = min (failures schedule) (2 ^ 32 - 1) := by
  rw [← foldl_countFailure]
  exact steps.view_eq_foldl failedAttempts fun _ _ _ stepped => failedAttempts_of_moves (moves_of_step stepped)

/-- Counting stops long after the interval has stopped growing. -/
theorem reconnectInterval_min (count : Nat) (close : Option CloseAction) :
    reconnectInterval (min count (2 ^ 32 - 1)) close = reconnectInterval count close := by
  cases close with
  | none =>
    simp only [reconnectInterval]
    split_ifs <;> first | rfl | omega
  | some action =>
    cases action with
    | reconnect => rfl
    | _ =>
      simp only [reconnectInterval]
      split_ifs <;> first | rfl | omega

/-! ## Waiting -/

/-- What the server said when the client last failed. -/
def lastFailure (schedule : List BusMove) : Option (Option CloseAction × Nat) :=
  (schedule.filterMap failing).getLast?

theorem lastFailure_concat (move : BusMove) :
    lastFailure (schedule ++ [move]) = (failing move).or (lastFailure schedule) := by
  rw [lastFailure, List.filterMap_append]
  cases fails : failing move <;> simp [fails, lastFailure]

theorem waiting_of_steps (steps : Steps (step settings) (start lastBatchIds) schedule final)
    {seconds : Nat} (waits : final.phase = .waiting interval seconds) :
    ∃ close nanos, lastFailure schedule = some (close, nanos) ∧
      interval = reconnectInterval final.failedAttempts close ∧ seconds = pickRandom nanos interval.1 interval.2 := by
  refine steps.linked (fun schedule run => ∀ interval seconds, run.phase = .waiting interval seconds →
      ∃ close nanos, lastFailure schedule = some (close, nanos) ∧
        interval = reconnectInterval run.failedAttempts close ∧
        seconds = pickRandom nanos interval.1 interval.2) ?_ ?_ interval seconds waits
  · intro schedule run move next _ linked stepped interval seconds waits
    rw [lastFailure_concat]
    cases moves_of_step stepped with
    | failed fails busy =>
      obtain ⟨rfl, rfl⟩ := Phase.waiting.inj waits
      exact ⟨_, _, by rw [fails, Option.some_or], rfl, rfl⟩
    | raise => exact linked interval seconds waits
    | cursors => exact linked interval seconds waits
    | heartbeat reading => exact absurd (reading.symm.trans waits) Phase.noConfusion
    | message reading => exact absurd (reading.symm.trans waits) Phase.noConfusion
    | pong reading => exact absurd (reading.symm.trans waits) Phase.noConfusion
    | skip reading => exact absurd (reading.symm.trans waits) Phase.noConfusion
    | _ => exact Phase.noConfusion waits
  · exact fun _ _ waits => Phase.noConfusion waits

theorem interval_of_closeAction {serverCode : Nat}
    (asks : closeAction serverCode = .reconnect interval) :
    interval = reconnectSmall ∨ interval = reconnectLarge := by
  dsimp only [closeAction] at asks
  generalize (if 4000 ≤ serverCode then serverCode - 4000 else serverCode) = code at asks
  split_ifs at asks
  · exact .inr (CloseAction.reconnect.inj asks).symm
  · exact .inl (CloseAction.reconnect.inj asks).symm

/-- A close frame asks for a short or for a long wait. -/
theorem interval_of_failing {nanos : Nat} (fails : failing move = some (some (.reconnect interval), nanos)) :
    interval = reconnectSmall ∨ interval = reconnectLarge := by
  cases move with
  | frame frame =>
    cases frame with
    | close code =>
      rw [failing] at fails
      split at fails
      · cases fails
      · exact interval_of_closeAction (Option.some.inj (Prod.mk.inj (Option.some.inj fails)).1)
    | _ => cases fails
  | heartbeat written => cases written <;> cases fails
  | _ => cases fails

theorem pickRandom_mem {lo hi : Nat} (ordered : lo ≤ hi) (nanos : Nat) :
    lo ≤ pickRandom nanos lo hi ∧ pickRandom nanos lo hi ≤ hi := by
  rw [pickRandom]
  split_ifs with narrow
  · exact ⟨le_rfl, ordered⟩
  · have inside := Nat.mod_lt nanos (show 0 < hi - lo + 1 by omega)
    exact ⟨by omega, by omega⟩

/-- Every interval is one of the three. -/
theorem reconnectInterval_mem {count nanos : Nat} {close : Option CloseAction}
    (fails : failing move = some (close, nanos)) :
    reconnectInterval count close ∈ [reconnectSmall, reconnectMedium, reconnectLarge] := by
  cases close with
  | none =>
    simp only [reconnectInterval]
    split_ifs <;> simp
  | some action =>
    cases action with
    | reconnect interval =>
      obtain rfl | rfl := interval_of_failing fails <;> simp [reconnectInterval]
    | _ =>
      simp only [reconnectInterval]
      split_ifs <;> simp

/-! ## The end -/

/-- Why a run ended, by what happened in it. -/
def EndsBy (schedule : List BusMove) (error : EventBusError) : Prop :=
  (error = .stopped ∧ (.raise ∈ schedule ∨ ∃ text nanos, .frame (.text text) false nanos ∈ schedule)) ∨
    ∃ code taken nanos status, .frame (.close code) taken nanos ∈ schedule ∧
      closeAction (code.getD 0) = .terminate status ∧ error = .authenticationRejected status

theorem EndsBy.append {error : EventBusError} (ends : EndsBy schedule error) (later : List BusMove) :
    EndsBy (schedule ++ later) error := by
  obtain ⟨isStopped, raised | ⟨text, nanos, unread⟩⟩ | ⟨code, taken, nanos, status, closed, verdict⟩ := ends
  · exact .inl ⟨isStopped, .inl (List.mem_append_left later raised)⟩
  · exact .inl ⟨isStopped, .inr ⟨text, nanos, List.mem_append_left later unread⟩⟩
  · exact .inr ⟨code, taken, nanos, status, List.mem_append_left later closed, verdict⟩

/-- The run was told to stop, and ended for a reason. -/
structure Explained (schedule : List BusMove) (run : BusRun) : Prop where
  told : run.shutdown = true → .raise ∈ schedule
  ended : ∀ error, run.phase = .ended error → EndsBy schedule error

theorem explained_of_moves (explained : Explained schedule run) (moves : Moves settings run move next) :
    Explained (schedule ++ [move]) next := by
  have told : run.shutdown = true → .raise ∈ schedule ++ [move] := fun isTold =>
    List.mem_append_left _ (explained.told isTold)
  have kept : ∀ error, run.phase = .ended error → EndsBy (schedule ++ [move]) error := fun error ended =>
    (explained.ended error ended).append [move]
  have last : move ∈ schedule ++ [move] := by simp
  have stops : run.shutdown = true → ∀ error, Phase.ended .stopped = .ended error →
      EndsBy (schedule ++ [move]) error := fun isTold error ended =>
    .inl ⟨(Phase.ended.inj ended).symm, .inl (told isTold)⟩
  cases moves with
  | raise => exact ⟨fun _ => last, kept⟩
  | cursors => exact ⟨told, kept⟩
  | heartbeat => exact ⟨told, kept⟩
  | message => exact ⟨told, kept⟩
  | pong => exact ⟨told, kept⟩
  | skip => exact ⟨told, kept⟩
  | decline looping isTold => exact ⟨told, stops isTold⟩
  | stop isTold => exact ⟨told, stops isTold⟩
  | unread =>
    exact ⟨told, fun error ended => .inl ⟨(Phase.ended.inj ended).symm, .inr ⟨_, _, last⟩⟩⟩
  | rejected reading verdict =>
    exact ⟨told, fun error ended => .inr ⟨_, _, _, _, last, verdict, (Phase.ended.inj ended).symm⟩⟩
  | _ => exact ⟨told, fun _ ended => Phase.noConfusion ended⟩

theorem explained_of_steps (steps : Steps (step settings) (start lastBatchIds) schedule final) :
    Explained schedule final :=
  steps.linked Explained (fun _ _ _ _ _ explained stepped => explained_of_moves explained (moves_of_step stepped))
    ⟨fun told => Bool.noConfusion told, fun _ ended => Phase.noConfusion ended⟩

/-- The state that observers are to see. -/
def shown (run : BusRun) : WsState :=
  match run.phase with
  | .looping => if run.addresses = [] then .stopped else .reconnecting
  | .connecting => .connecting
  | .reading => .connected
  | .waiting _ _ => .reconnecting
  | .ended _ => .stopped

/-- Observers see what the client does, and past the head of its loop it has asked for a connection. -/
structure Announced (run : BusRun) : Prop where
  seen : run.published.getLast? = some run.shown
  asked : run.phase = .connecting ∨ run.phase = .reading ∨
    (∃ interval seconds, run.phase = .waiting interval seconds) → run.addresses ≠ []

theorem announced_of_moves (announced : Announced run) (moves : Moves settings run move next) : Announced next := by
  obtain ⟨seen, asked⟩ := announced
  cases moves with
  | raise => exact ⟨seen, asked⟩
  | cursors => exact ⟨seen, asked⟩
  | heartbeat => exact ⟨seen, asked⟩
  | message => exact ⟨seen, asked⟩
  | pong => exact ⟨seen, asked⟩
  | skip => exact ⟨seen, asked⟩
  | attempt => exact ⟨by simp [shown], fun _ => by simp⟩
  | connected connecting => exact ⟨by simp [shown], fun _ => asked (.inl connecting)⟩
  | failed fails busy =>
    exact ⟨by simp [shown, fail], fun _ => asked (busy.imp_right .inl)⟩
  | slept waited =>
    have some' := asked (.inr (.inr ⟨_, _, waited⟩))
    refine ⟨?_, fun _ => some'⟩
    rw [seen]
    simp [shown, waited, some']
  | _ => exact ⟨by simp [shown, finish], by simp [finish]⟩

theorem announced_of_steps (steps : Steps (step settings) (start lastBatchIds) schedule final) : Announced final :=
  steps.invariant Announced (fun _ _ _ announced stepped => announced_of_moves announced (moves_of_step stepped))
    ⟨rfl, fun busy => by simp [start] at busy⟩

/-- Once told to stop, the client asks for no connection. -/
theorem addresses_of_moves (told : run.shutdown = true) (moves : Moves settings run move next) :
    next.shutdown = true ∧ next.addresses = run.addresses := by
  cases moves with
  | attempt looping notTold => exact absurd told (by simp [notTold])
  | raise => exact ⟨rfl, rfl⟩
  | _ => exact ⟨told, rfl⟩

/-- A run that was told to stop can end at once, wherever it is. -/
theorem ends_of_told (told : run.shutdown = true) : (∃ error, run.phase = .ended error) ∨
      ∃ move ∈ [BusMove.attempt, .stop], ∃ ended, run.step settings move = some ended ∧ ended.phase = .ended .stopped := by
  cases phase : run.phase with
  | looping => exact .inr ⟨.attempt, by simp, run.finish .stopped, by simp [step, phase, told], rfl⟩
  | connecting => exact .inr ⟨.stop, by simp, run.finish .stopped, by simp [step, phase, told], rfl⟩
  | reading =>
    exact .inr ⟨.stop, by simp, finish { run with replies := run.replies ++ [.close] } .stopped,
      by simp [step, phase, told], rfl⟩
  | waiting => exact .inr ⟨.stop, by simp, run.finish .stopped, by simp [step, phase, told], rfl⟩
  | ended error => exact .inl ⟨error, rfl⟩

end TutaBridge.Bus.BusRun
