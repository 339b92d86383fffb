import TutaBridge.Session.Store

/-!
# What the operations of a session store do

The seven operations are three acts: looking at the session, saving one, and deleting it.
`Came` lists what each act can come to, with the state left and the calls made. What holds
over whole histories is read off this list.
-/

namespace TutaBridge.Session

open TutaBridge.Std

variable {store : SessionStore} {operation : Operation}

/-! ## Readings -/

/-- What a read of the backend shows. -/
inductive Reading where
  | failed (error : SessionStoreError)
  | undecodable
  | found (credentials : Option Credentials)
deriving DecidableEq, Repr

/-- The read succeeded: it decodes, or confirms absence. -/
def Reading.isGood : Reading → Bool
  | .found _ => true
  | _ => false

namespace State

/-- What a read shows in a state. -/
def reading (format : Json.Format) (answers : Answers) (state : State) : Reading :=
  match state.backend.read answers.read with
  | .error error => .failed error
  | .ok none => .found none
  | .ok (some bytes) =>
    match decode format bytes with
    | none => .undecodable
    | some credentials => .found (some credentials)

/-- The error about bytes that are not a session. -/
def invalid (state : State) : SessionStoreError :=
  .invalidSession state.backend.name state.backend.entry

/-- The state after a read that succeeded. -/
def readable (state : State) (credentials : Option Credentials) : State :=
  { state with persistence := .writable, warning := none, cache := .loaded credentials }

/-- The state after a read that did not, in the mode its caller is left with. -/
def warned (state : State) (persistence : Persistence) (error : SessionStoreError) : State :=
  { state with persistence := persistence, warning := some error.warning }

/-- The state of an interactive login without persistence. -/
def inMemory (state : State) (error : SessionStoreError) : State :=
  { state with persistence := .volatile, cache := .loaded none, warning := some error.warning }

/-- What a load comes to that has to read. -/
def look (state : State) : Reading → Outcome (Option Credentials)
  | .failed error => ⟨.error error, state.warned .unreadable error, [.read]⟩
  | .undecodable => ⟨.error state.invalid, state.warned .unreadable state.invalid, [.read]⟩
  | .found credentials => ⟨.ok credentials, state.readable credentials, [.read]⟩

section Load

variable {format : Json.Format} {answers : Answers} {state : State}

theorem load_of_loaded {credentials : Option Credentials} (loaded : state.cache = .loaded credentials) :
    state.load format answers = ⟨.ok credentials, state, []⟩ := by
  unfold load
  rw [loaded]

theorem load_of_unloaded (unloaded : state.cache = .unloaded) :
    state.load format answers = state.look (state.reading format answers) := by
  obtain ⟨backend, cache, persistence, warning⟩ := state
  cases unloaded
  unfold load reading
  cases backend.read answers.read with
  | error error => rfl
  | ok raw =>
    cases raw with
    | none => rfl
    | some bytes =>
      cases decoded : decode format bytes with
      | none => simp [decoded, look, warned, invalid]
      | some credentials => simp [decoded, look, readable]

/-- A read that failed is no permission to replace what is there. -/
theorem not_reauthentication_of_failed {error : SessionStoreError}
    (failed : state.reading format answers = .failed error) : error.allowsReauthentication = false := by
  unfold reading at failed
  cases read : state.backend.read answers.read with
  | error other =>
    rw [read] at failed
    cases failed
    exact Backend.read_not_reauthentication read
  | ok raw =>
    cases raw with
    | none => rw [read] at failed; cases failed
    | some bytes =>
      rw [read] at failed
      cases decoded : decode format bytes with
      | none => simp [decoded] at failed
      | some credentials => simp [decoded] at failed

end Load

end State

/-! ## The acts -/

namespace Operation

/-- The operation looks at the session. -/
def looks : Operation → Bool
  | .load => true
  | .loadPersisted _ => true
  | .loadInteractive => true
  | .inspect => true
  | _ => false

/-- A password was supplied, which may replace bytes that are not a session. -/
def authorizes : Operation → Bool
  | .loadPersisted passwordSupplied => passwordSupplied
  | .loadInteractive => true
  | _ => false

/-- The credentials an operation saves, and whether it preserves what is there. -/
def saves : Operation → Option (Credentials × Bool)
  | .save credentials => some (credentials, false)
  | .savePreserving credentials => some (credentials, true)
  | _ => none

/-- A look saves nothing. -/
theorem saves_of_looks (looks : operation.looks = true) : operation.saves = none := by
  cases operation with
  | save _ | savePreserving _ | delete => cases looks
  | _ => rfl

/-- What may replace bytes that are not a session saves nothing either: it looks. -/
theorem looks_of_authorizes (authorizes : operation.authorizes = true) : operation.looks = true := by
  cases operation with
  | loadPersisted _ | loadInteractive => rfl
  | _ => cases authorizes

/-- What a look returns that finds a session, or its absence, in a state. -/
def answer (state : State) (credentials : Option Credentials) : Operation → Except SessionStoreError Answer
  | .loadPersisted _ =>
    if state.persistence = .volatile ∨ credentials.isSome ∧ state.warning.isSome then
      .error .persistenceRequired
    else .ok (.credentials credentials)
  | .inspect => .ok (.status { available := credentials.isSome, warning := state.warning })
  | _ => .ok (.credentials credentials)

/-- What a look returns that is not answered. -/
def failure (error : SessionStoreError) : Operation → Except SessionStoreError Answer
  | .inspect =>
    if error.allowsVolatileLogin || error.allowsReauthentication then
      .ok (.status { available := false, warning := some error.warning })
    else .error error
  | _ => .error error

end Operation

/-- What an operation can come to. -/
inductive Came (format : Json.Format) (answers : Answers) (state : State) :
    Operation → Outcome Answer → Prop where
  | cached {operation : Operation} {credentials : Option Credentials} (looks : operation.looks = true)
      (loaded : state.cache = .loaded credentials) :
      Came format answers state operation ⟨operation.answer state credentials, state, []⟩
  | found {operation : Operation} {credentials : Option Credentials} (looks : operation.looks = true)
      (unloaded : state.cache = .unloaded) (found : state.reading format answers = .found credentials) :
      Came format answers state operation
        ⟨operation.answer (state.readable credentials) credentials, state.readable credentials, [.read]⟩
  | failed {operation : Operation} {error : SessionStoreError} (looks : operation.looks = true)
      (unloaded : state.cache = .unloaded) (failed : state.reading format answers = .failed error)
      (strict : (operation = .loadInteractive ∧ error.allowsVolatileLogin = true) → False) :
      Came format answers state operation ⟨operation.failure error, state.warned .unreadable error, [.read]⟩
  | undecodable {operation : Operation} (looks : operation.looks = true)
      (strict : operation.authorizes = false) (unloaded : state.cache = .unloaded)
      (undecodable : state.reading format answers = .undecodable) :
      Came format answers state operation
        ⟨operation.failure state.invalid, state.warned .unreadable state.invalid, [.read]⟩
  | authorized {operation : Operation} (authorizes : operation.authorizes = true)
      (unloaded : state.cache = .unloaded) (undecodable : state.reading format answers = .undecodable) :
      Came format answers state operation
        ⟨.ok (.credentials none), state.warned .replaceInvalid state.invalid, [.read]⟩
  | fallback {error : SessionStoreError} (unloaded : state.cache = .unloaded)
      (failed : state.reading format answers = .failed error)
      (allowed : error.allowsVolatileLogin = true) :
      Came format answers state .loadInteractive ⟨.ok (.credentials none), state.inMemory error, [.read]⟩
  | saveRefused {operation : Operation} {credentials : Credentials} {preserve : Bool}
      (saves : operation.saves = some (credentials, preserve))
      (unreadable : state.persistence = .unreadable) :
      Came format answers state operation ⟨.error .unreadableStore, state, []⟩
  | saveKept {operation : Operation} {credentials : Credentials} {preserve : Bool}
      (saves : operation.saves = some (credentials, preserve)) (volatile : state.persistence = .volatile) :
      Came format answers state operation
        ⟨.error .volatileSession, { state with cache := .loaded (some credentials) }, []⟩
  | saved {operation : Operation} {credentials : Credentials} {preserve : Bool}
      (saves : operation.saves = some (credentials, preserve))
      (readable : state.persistence ≠ .unreadable) (kept : state.persistence ≠ .volatile)
      (written : state.backend.write answers.write = .ok ()) :
      Came format answers state operation ⟨.ok .done, state.readable (some credentials),
          [.write (preserve && state.backend.isPass) (encode format credentials)]⟩
  | saveFailed {operation : Operation} {credentials : Credentials} {preserve : Bool} {message : String}
      (saves : operation.saves = some (credentials, preserve))
      (readable : state.persistence ≠ .unreadable) (kept : state.persistence ≠ .volatile)
      (failed : state.backend.write answers.write = .error message) {warning : String} :
      Came format answers state operation ⟨.error (.write state.backend.name message),
          { state with
            cache := .loaded (some credentials), persistence := .writable, warning := some warning },
          [.write (preserve && state.backend.isPass) (encode format credentials)]⟩
  | deleteRefused (refused : state.persistence = .unreadable ∨ state.persistence = .replaceInvalid) :
      Came format answers state .delete ⟨.error .unreadableStore, state, []⟩
  | deleteKept (volatile : state.persistence = .volatile) :
      Came format answers state .delete ⟨.error .volatileSession, { state with cache := .loaded none }, []⟩
  | deleted (writable : state.persistence = .writable)
      (done : state.backend.delete answers.delete = .ok ()) :
      Came format answers state .delete
        ⟨.ok .done, { state with cache := .loaded none, warning := none }, [.delete]⟩
  | deleteFailed {message : String} (writable : state.persistence = .writable)
      (failed : state.backend.delete answers.delete = .error message) {warning : String} :
      Came format answers state .delete ⟨.error (.delete state.backend.name message),
          { state with cache := .loaded none, warning := some warning }, [.delete]⟩

section Perform

variable {format : Json.Format} {answers : Answers} {state : State}

theorem came_load : Came format answers state .load (state.perform format answers .load) := by
  unfold State.perform
  cases cached : state.cache with
  | loaded credentials =>
    rw [State.load_of_loaded cached]
    exact .cached rfl cached
  | unloaded =>
    rw [State.load_of_unloaded cached]
    cases shown : state.reading format answers with
    | failed error => exact .failed rfl cached shown fun ⟨interactive, _⟩ => Operation.noConfusion interactive
    | undecodable => exact .undecodable rfl rfl cached shown
    | found credentials => exact .found rfl cached shown

theorem came_inspect : Came format answers state .inspect (state.perform format answers .inspect) := by
  unfold State.perform State.inspect
  cases cached : state.cache with
  | loaded credentials =>
    rw [State.load_of_loaded cached]
    exact .cached rfl cached
  | unloaded =>
    rw [State.load_of_unloaded cached]
    cases shown : state.reading format answers with
    | failed error =>
      have came : Came format answers state .inspect _ :=
        .failed rfl cached shown fun ⟨interactive, _⟩ => Operation.noConfusion interactive
      simp only [State.look]
      split <;> simp_all [Operation.failure, Outcome.map, Except.map]
    | undecodable => exact .undecodable rfl rfl cached shown
    | found credentials => exact .found rfl cached shown

theorem came_loadInteractive :
    Came format answers state .loadInteractive (state.perform format answers .loadInteractive) := by
  unfold State.perform State.loadForPassword
  cases cached : state.cache with
  | loaded credentials =>
    rw [State.load_of_loaded cached]
    exact .cached rfl cached
  | unloaded =>
    rw [State.load_of_unloaded cached]
    cases shown : state.reading format answers with
    | failed error =>
      have strict := State.not_reauthentication_of_failed shown
      by_cases allowed : error.allowsVolatileLogin = true
      · simp only [State.look, strict, allowed, Bool.and_self, Bool.false_eq_true, if_false, if_true]
        exact .fallback cached shown allowed
      · simp only [State.look, strict, allowed, Bool.and_false, Bool.false_eq_true, if_false]
        exact .failed rfl cached shown fun ⟨_, permitted⟩ => allowed permitted
    | undecodable => exact .authorized rfl cached shown
    | found credentials => exact .found rfl cached shown

theorem came_loadPersisted (passwordSupplied : Bool) : Came format answers state (.loadPersisted passwordSupplied)
      (state.perform format answers (.loadPersisted passwordSupplied)) := by
  unfold State.perform State.loadPersisted State.loadForPassword
  cases cached : state.cache with
  | loaded credentials =>
    rw [State.load_of_loaded cached]
    have came : Came format answers state (.loadPersisted passwordSupplied) _ := .cached rfl cached
    cases passwordSupplied with
    | _ =>
      simp only [Operation.answer] at came
      simp only [if_true, Bool.false_eq_true, if_false]
      split at came
      · rw [if_pos ‹_›]; exact came
      · rw [if_neg ‹_›]; exact came
  | unloaded =>
    rw [State.load_of_unloaded cached]
    cases shown : state.reading format answers with
    | failed error =>
      have strict := State.not_reauthentication_of_failed shown
      have came : Came format answers state (.loadPersisted passwordSupplied) _ :=
        .failed rfl cached shown fun ⟨interactive, _⟩ => Operation.noConfusion interactive
      cases passwordSupplied with
      | false => exact came
      | true => simpa [State.look, strict, Outcome.map, Except.map, Operation.failure] using came
    | undecodable =>
      cases passwordSupplied with
      | false => exact .undecodable rfl rfl cached shown
      | true => exact .authorized rfl cached shown
    | found credentials =>
      have came : Came format answers state (.loadPersisted passwordSupplied) _ :=
        .found rfl cached shown
      cases passwordSupplied with
      | _ =>
        simpa [State.look, State.readable, Outcome.map, Except.map, Operation.answer] using came

theorem came_save {credentials : Credentials} {preserve : Bool}
    (saves : operation.saves = some (credentials, preserve)) : Came format answers state operation
      ((state.saveWithPolicy format answers credentials preserve).map fun _ => .done) := by
  unfold State.saveWithPolicy
  by_cases unreadable : state.persistence = .unreadable
  · rw [if_pos unreadable]
    exact .saveRefused saves unreadable
  · rw [if_neg unreadable]
    by_cases volatile : state.persistence = .volatile
    · dsimp only
      rw [if_pos volatile]
      exact .saveKept saves volatile
    · dsimp only
      rw [if_neg volatile]
      cases written : state.backend.write answers.write with
      | ok done => exact .saved saves unreadable volatile written
      | error message => exact .saveFailed saves unreadable volatile written

theorem came_delete : Came format answers state .delete (state.perform format answers .delete) := by
  unfold State.perform State.delete
  by_cases refused : state.persistence = .unreadable ∨ state.persistence = .replaceInvalid
  · rw [if_pos refused]
    exact .deleteRefused refused
  · rw [if_neg refused]
    by_cases volatile : state.persistence = .volatile
    · dsimp only
      rw [if_pos volatile]
      exact .deleteKept volatile
    · have writable : state.persistence = .writable := by
        cases mode : state.persistence with
        | writable => rfl
        | unreadable => exact absurd (.inl mode) refused
        | replaceInvalid => exact absurd (.inr mode) refused
        | volatile => exact absurd mode volatile
      dsimp only
      rw [if_neg volatile]
      cases done : state.backend.delete answers.delete with
      | ok _ => exact .deleted writable done
      | error message => exact .deleteFailed writable done

/-- Every operation comes to one of these. -/
theorem State.came (format : Json.Format) (answers : Answers) (state : State) (operation : Operation) :
    Came format answers state operation (state.perform format answers operation) := by
  cases operation with
  | load => exact came_load
  | loadPersisted passwordSupplied => exact came_loadPersisted passwordSupplied
  | loadInteractive => exact came_loadInteractive
  | inspect => exact came_inspect
  | save credentials => exact came_save rfl
  | savePreserving credentials => exact came_save rfl
  | delete => exact came_delete

end Perform

namespace SessionStore

variable {keyringSupported : Bool} {format : Json.Format}

/-- An operation is refused for the platform, or comes to what its act comes to. -/
theorem run_cases (store : SessionStore) (operation : Operation) (answers : Answers) :
    (∃ error, store.context.selection.validate keyringSupported = .error error ∧
      store.run keyringSupported format (operation, answers) =
        ⟨operation, answers, store, .error error, [], store⟩) ∨
    ∃ outcome, Came format answers store.state operation outcome ∧
      store.run keyringSupported format (operation, answers) =
        ⟨operation, answers, store, outcome.result, outcome.calls, { store with state := outcome.state }⟩ := by
  unfold run
  cases store.context.selection.validate keyringSupported with
  | error error => exact .inl ⟨error, rfl, rfl⟩
  | ok valid => exact .inr ⟨_, store.state.came format answers operation, rfl⟩

/-- Where the selection does not fit the platform, nothing happens. -/
theorem run_of_invalid {error : SessionStoreError}
    (invalid : store.context.selection.validate keyringSupported = .error error) (label : Operation × Answers) :
    store.run keyringSupported format label = ⟨label.1, label.2, store, .error error, [], store⟩ := by
  unfold run
  rw [invalid]

/-- Where the selection fits the platform, an operation comes to what its act comes to. -/
theorem run_of_valid
    (valid : store.context.selection.validate keyringSupported = .ok ()) (operation : Operation)
    (answers : Answers) :
    ∃ outcome, Came format answers store.state operation outcome ∧
      store.run keyringSupported format (operation, answers) =
        ⟨operation, answers, store, outcome.result, outcome.calls, { store with state := outcome.state }⟩ := by
  rcases store.run_cases operation answers with ⟨error, invalid, _⟩ | came
  · rw [valid] at invalid
    cases invalid
  · exact came

@[simp] theorem run_before (store : SessionStore) (label : Operation × Answers) :
    (store.run keyringSupported format label).before = store := by
  obtain ⟨operation, answers⟩ := label
  rcases store.run_cases operation answers with ⟨error, _, same⟩ | ⟨outcome, came, same⟩
  · rw [same]
  · rw [same]

@[simp] theorem run_operation (store : SessionStore) (label : Operation × Answers) :
    (store.run keyringSupported format label).operation = label.1 := by
  obtain ⟨operation, answers⟩ := label
  rcases store.run_cases operation answers with ⟨error, _, same⟩ | ⟨outcome, came, same⟩
  · rw [same]
  · rw [same]

/-- An operation leaves the selection as it is. -/
@[simp] theorem run_context (store : SessionStore) (label : Operation × Answers) :
    (store.run keyringSupported format label).after.context = store.context := by
  obtain ⟨operation, answers⟩ := label
  rcases store.run_cases operation answers with ⟨error, _, same⟩ | ⟨outcome, came, same⟩
  · rw [same]
  · rw [same]

end SessionStore

/-! ## What an event shows -/

namespace Event

variable (format : Json.Format)

/-- What the event read from the backend, if it read. -/
def saw (event : Event) : Option Reading :=
  if event.calls.any (· = .read) then some (event.before.state.reading format event.answers) else none

section Saw

variable {format} {operation : Operation} {answers : Answers} {before after : SessionStore}
  {result : Except SessionStoreError Answer} {preserving : Bool} {secret : String}

@[simp] theorem saw_nil : (mk operation answers before result [] after).saw format = none := rfl

@[simp] theorem saw_read : (mk operation answers before result [.read] after).saw format =
    some (before.state.reading format answers) := rfl

@[simp] theorem saw_write :
    (mk operation answers before result [.write preserving secret] after).saw format = none := by
  simp [saw]

@[simp] theorem saw_delete : (mk operation answers before result [.delete] after).saw format = none := rfl

end Saw

/-- The event's read failed or returned undecodable bytes. -/
def readBad (event : Event) : Bool := (event.saw format).any (!·.isGood)

/-- The event's read succeeded. -/
def readGood (event : Event) : Bool := (event.saw format).any (·.isGood)

/-- Under a supplied password the event saw readable but undecodable bytes. -/
def authorized (event : Event) : Bool :=
  event.operation.authorizes && (event.saw format = some .undecodable)

/-- The event issued a write or a delete. -/
def changes (event : Event) : Bool := event.calls.any (· ≠ .read)

end Event

/-! ## An unreadable session is kept -/

namespace State

/-- Nothing may be written: a read went wrong, or the session is in memory only. -/
def Guarded (state : State) : Prop :=
  state.cache = .unloaded ∧ state.persistence = .unreadable ∨
    (∃ credentials, state.cache = .loaded credentials) ∧ state.persistence = .volatile

/-- What is cached was read, saved or kept in memory only. -/
def Settled (state : State) : Prop :=
  ∀ credentials, state.cache = .loaded credentials →
    state.persistence = .writable ∨ state.persistence = .volatile

end State

section Guarded

variable {keyringSupported : Bool} {format : Json.Format}

/-- A read that goes wrong leaves the session guarded, unless it saw bytes that a password
may replace. -/
theorem guarded_of_readBad {label : Operation × Answers}
    (bad : (store.run keyringSupported format label).readBad format = true) :
    (store.run keyringSupported format label).authorized format = true ∨
      (store.run keyringSupported format label).after.state.Guarded := by
  obtain ⟨operation, answers⟩ := label
  rcases store.run_cases operation answers with ⟨error, _, same⟩ | ⟨outcome, came, same⟩
  · rw [same] at bad
    simp [Event.readBad, Event.saw] at bad
  · rw [same] at bad ⊢
    cases came with
    | failed looks unloaded failed strict => exact .inr (.inl ⟨unloaded, rfl⟩)
    | undecodable looks strict unloaded undecodable => exact .inr (.inl ⟨unloaded, rfl⟩)
    | authorized authorizes unloaded undecodable =>
      exact .inl (by simp [Event.authorized, Event.saw, authorizes, undecodable])
    | fallback unloaded failed allowed => exact .inr (.inr ⟨⟨none, rfl⟩, rfl⟩)
    | found looks unloaded found => simp [Event.readBad, Event.saw, found, Reading.isGood] at bad
    | _ => simp [Event.readBad, Event.saw] at bad

/-- What is guarded stays so until a read succeeds or a password is supplied for bytes that
are not a session. -/
theorem guarded_step (label : Operation × Answers) (guarded : store.state.Guarded) :
    ((store.run keyringSupported format label).readGood format = true ∨
        (store.run keyringSupported format label).authorized format = true) ∨
      (store.run keyringSupported format label).after.state.Guarded := by
  obtain ⟨operation, answers⟩ := label
  rcases store.run_cases operation answers with ⟨error, _, same⟩ | ⟨outcome, came, same⟩
  · rw [same]
    exact .inr guarded
  · rw [same]
    cases came with
    | cached looks loaded => exact .inr guarded
    | found looks unloaded found =>
      exact .inl (.inl (by simp [Event.readGood, Event.saw, found, Reading.isGood]))
    | failed looks unloaded failed strict => exact .inr (.inl ⟨unloaded, rfl⟩)
    | undecodable looks strict unloaded undecodable => exact .inr (.inl ⟨unloaded, rfl⟩)
    | authorized authorizes unloaded undecodable =>
      exact .inl (.inr (by simp [Event.authorized, Event.saw, authorizes, undecodable]))
    | fallback unloaded failed allowed => exact .inr (.inr ⟨⟨none, rfl⟩, rfl⟩)
    | saveRefused saves unreadable => exact .inr guarded
    | saveKept saves volatile => exact .inr (.inr ⟨⟨_, rfl⟩, volatile⟩)
    | deleteRefused refused => exact .inr guarded
    | deleteKept volatile => exact .inr (.inr ⟨⟨_, rfl⟩, volatile⟩)
    | saved saves readable kept written | saveFailed saves readable kept failed =>
      rcases guarded with ⟨_, unreadable⟩ | ⟨_, volatile⟩
      · exact absurd unreadable readable
      · exact absurd volatile kept
    | deleted writable done | deleteFailed writable failed =>
      rcases guarded with ⟨_, unreadable⟩ | ⟨_, volatile⟩
      · exact absurd (writable.symm.trans unreadable) Persistence.noConfusion
      · exact absurd (writable.symm.trans volatile) Persistence.noConfusion

/-- Only a store that accepts changes writes or deletes. -/
theorem mode_of_changes {label : Operation × Answers}
    (changes : (store.run keyringSupported format label).changes = true) :
    store.state.persistence ≠ .unreadable ∧ store.state.persistence ≠ .volatile := by
  obtain ⟨operation, answers⟩ := label
  rcases store.run_cases operation answers with ⟨error, _, same⟩ | ⟨outcome, came, same⟩
  · rw [same] at changes
    simp [Event.changes] at changes
  · rw [same] at changes
    cases came with
    | saved saves readable kept written | saveFailed saves readable kept failed => exact ⟨readable, kept⟩
    | deleted writable done | deleteFailed writable failed => 
        rw [writable]
        exact ⟨Persistence.noConfusion, Persistence.noConfusion⟩
    | _ => simp [Event.changes] at changes

theorem settled_step (label : Operation × Answers) (settled : store.state.Settled) :
    (store.run keyringSupported format label).after.state.Settled := by
  obtain ⟨operation, answers⟩ := label
  rcases store.run_cases operation answers with ⟨error, _, same⟩ | ⟨outcome, came, same⟩
  · rw [same]
    exact settled
  · rw [same]
    intro credentials cached
    cases came with
    | cached looks loaded => exact settled _ loaded
    | found looks unloaded found => exact .inl rfl
    | failed looks unloaded failed strict => exact absurd (unloaded.symm.trans cached) Cache.noConfusion
    | undecodable looks strict unloaded undecodable =>
      exact absurd (unloaded.symm.trans cached) Cache.noConfusion
    | authorized authorizes unloaded undecodable =>
      exact absurd (unloaded.symm.trans cached) Cache.noConfusion
    | fallback unloaded failed allowed => exact .inr rfl
    | saveRefused saves unreadable => exact settled _ cached
    | saveKept saves volatile => exact .inr volatile
    | saved saves readable kept written => exact .inl rfl
    | saveFailed saves readable kept failed => exact .inl rfl
    | deleteRefused refused => exact settled _ cached
    | deleteKept volatile => exact .inr volatile
    | deleted writable done => exact .inl writable
    | deleteFailed writable failed => exact .inl writable

end Guarded

/-- The history of a sequence of operations on a store. -/
abbrev SessionStore.events (keyringSupported : Bool) (format : Json.Format) (store : SessionStore)
    (labels : List (Operation × Answers)) : List Event :=
  history (SessionStore.run keyringSupported format) Event.after store labels

/-- The store after a sequence of operations. -/
abbrev SessionStore.runAll (keyringSupported : Bool) (format : Json.Format) (store : SessionStore)
    (labels : List (Operation × Answers)) : SessionStore :=
  final (SessionStore.run keyringSupported format) Event.after store labels

/-- The history of a store since it was made. -/
abbrev storeHistory (keyringSupported : Bool) (format : Json.Format) (config : Config)
    (labels : List (Operation × Answers)) : List Event :=
  (SessionStore.new keyringSupported config).events keyringSupported format labels

/-- The store after a sequence of operations on a new one. -/
abbrev storeAfter (keyringSupported : Bool) (format : Json.Format) (config : Config)
    (labels : List (Operation × Answers)) : SessionStore :=
  (SessionStore.new keyringSupported config).runAll keyringSupported format labels

section Reachable

variable {keyringSupported : Bool} {format : Json.Format} {config : Config}

theorem settled_of_reachable (labels : List (Operation × Answers)) :
    (storeAfter keyringSupported format config labels).state.Settled :=
  final_invariant (fun store : SessionStore => store.state.Settled) (fun _ => settled_step)
    (fun _ cached => Cache.noConfusion cached) labels

/-- After a read that failed or returned undecodable bytes nothing is written or deleted
until a later read succeeds, or a load with a password has seen undecodable bytes; in
volatile mode nothing ever is; and what is cached is saved, or known to be in memory only. -/
theorem unreadable_session_is_kept (keyringSupported : Bool) (format : Json.Format) (config : Config)
    (labels : List (Operation × Answers)) : (∀ before bad middle change later,
      storeHistory keyringSupported format config labels = before ++ bad :: (middle ++ change :: later) →
      bad.readBad format = true → change.changes = true →
      ∃ lifting ∈ bad :: middle, lifting.readGood format = true ∨ lifting.authorized format = true) ∧
    (∀ event ∈ storeHistory keyringSupported format config labels,
      event.before.state.persistence = .volatile → event.changes = false) ∧
    ∀ credentials, (storeAfter keyringSupported format config labels).state.cache = .loaded (some credentials) →
      (storeAfter keyringSupported format config labels).state.persistence = .writable ∨
        (storeAfter keyringSupported format config labels).state.persistence = .volatile := by
  refine ⟨fun before bad middle change later split wentWrong changed => ?_, fun event mem volatile => ?_,
    fun credentials cached => settled_of_reachable labels _ cached⟩
  · refine exists_lifting (fun store => store.state.Guarded) (fun event => event.readBad format = true)
      (fun event => event.readGood format = true ∨ event.authorized format = true)
      (fun event => event.changes = true) (fun store label bad => ?_)
      (fun store label guarded => guarded_step label guarded)
      (fun store label guarded changes => ?_) split wentWrong changed
    · exact (guarded_of_readBad bad).imp_left .inr
    · obtain ⟨readable, kept⟩ := mode_of_changes changes
      rcases guarded with ⟨_, unreadable⟩ | ⟨_, volatile⟩
      · exact readable unreadable
      · exact kept volatile
  · obtain ⟨before, later, split⟩ := List.append_of_mem mem
    obtain ⟨first, label, second, -, -, rfl, -⟩ := history_eq_append_cons split
    rw [SessionStore.run_before] at volatile
    by_contra changes
    exact (mode_of_changes ((Bool.not_eq_false _).mp changes)).2 volatile

end Reachable

/-- A locked keyring. -/
def lockedAnswers : Answers := ⟨.failed (.noStorageAccess "locked"), .ok (), .ok ()⟩

/-- The keyring once it is unlocked, without an entry. -/
def emptyAnswers : Answers := ⟨.absent, .ok (), .ok ()⟩

def someCredentials : Credentials := ⟨"me@tuta.io", "user", "token", [], .internal⟩

/-- A failed load, one that finds nothing, a save and a load. -/
def unlockedLabels : List (Operation × Answers) :=
  [(.load, lockedAnswers), (.load, emptyAnswers), (.save someCredentials, emptyAnswers),
    (.loadPersisted false, emptyAnswers)]

def noFormat : Json.Format := ⟨fun _ => none, fun _ => "", fun _ => none⟩

def meConfig : Config := ⟨"me@tuta.io", "https://app.tuta.com", none⟩

theorem unreadable_session_is_kept_unlocked :
    ∃ bad good change later, storeHistory true noFormat meConfig unlockedLabels = [bad, good, change, later] ∧
      ∃ lifting ∈ [bad, good], lifting.readGood noFormat = true ∨ lifting.authorized noFormat = true :=
  ⟨_, _, _, _, rfl, (unreadable_session_is_kept true noFormat meConfig unlockedLabels).1 [] _ [_] _ [_] rfl
    (by decide) (by decide)⟩

end TutaBridge.Session
