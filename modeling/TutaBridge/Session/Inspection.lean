import TutaBridge.Session.Cell

/-!
# Looking at the session

An inspection reads like any load. Inserted into a run it changes nothing for the saves
that follow where its read shows what the mode of the store already says. Where it is the
store's first read, or the first that succeeds, it decides about later saves as a load does.
-/

namespace TutaBridge.Session

open TutaBridge.Std

variable {future : List (Operation × Answers)} {credentials : Credentials} {store : SessionStore}
    {preserve : Bool}

section Definitions

variable (keyringSupported : Bool) (format : Json.Format)

/-- The store after an inspection. -/
def inspected (store : SessionStore) (answers : Answers) : SessionStore :=
  (store.run keyringSupported format (.inspect, answers)).after

/-- The next read of the backend, if there is one, shows what is given. -/
def ReadsNext (reading : Reading) : SessionStore → List (Operation × Answers) → Prop
  | _, [] => True
  | store, label :: rest =>
    (∀ shown, (store.run keyringSupported format label).saw format = some shown → shown = reading) ∧
      ((store.run keyringSupported format label).saw format = none →
        ReadsNext reading (store.run keyringSupported format label).after rest)

/-- The store returns the credentials to a load without asking the backend. -/
def Usable (store : SessionStore) (credentials : Credentials) : Prop :=
  store.state.cache = .loaded (some credentials)

/-- From both stores every save of the run has the same result, and what it saved is usable
at the end of the run of the one exactly if it is at the end of the run of the other. -/
def SavesAlike (store other : SessionStore) (labels : List (Operation × Answers)) : Prop :=
  ∀ first label rest credentials preserve, labels = first ++ label :: rest →
    label.1.saves = some (credentials, preserve) →
    ((store.runAll keyringSupported format first).run keyringSupported format label).result =
      ((other.runAll keyringSupported format first).run keyringSupported format label).result ∧
    (Usable (store.runAll keyringSupported format labels) credentials ↔
      Usable (other.runAll keyringSupported format labels) credentials)

/-- What an inspection would show agrees with the mode of the store: its read succeeds
where saves are allowed, and goes wrong where they are refused. -/
def Agrees (store : SessionStore) (answers : Answers) : Prop :=
  store.state.persistence ≠ .unreadable ↔ (store.state.reading format answers).isGood = true

end Definitions

/-! ## Stores that differ in their warning only -/

/-- The states agree on everything but the warning. -/
structure State.SameSession (state other : State) : Prop where
  backend : state.backend = other.backend
  cache : state.cache = other.cache
  persistence : state.persistence = other.persistence

namespace State.SameSession

variable {format : Json.Format} {answers : Answers} {state other : State}

theorem refl (state : State) : state.SameSession state := ⟨rfl, rfl, rfl⟩

/-- Loads of states that agree return the same and leave states that agree. -/
theorem load (format : Json.Format) (answers : Answers) (same : state.SameSession other) :
    (state.load format answers).result = (other.load format answers).result ∧
      (state.load format answers).state.SameSession (other.load format answers).state := by
  obtain ⟨backend, cache, persistence, warning⟩ := state
  obtain ⟨backend', cache', persistence', warning'⟩ := other
  obtain ⟨rfl, rfl, rfl⟩ := same
  cases cached : cache with
  | loaded credentials =>
    rw [State.load_of_loaded rfl, State.load_of_loaded rfl]
    exact ⟨rfl, rfl, rfl, rfl⟩
  | unloaded =>
    rw [State.load_of_unloaded rfl, State.load_of_unloaded rfl]
    exact ⟨rfl, .refl _⟩

theorem inspect (same : state.SameSession other) :
    (state.inspect format answers).state.SameSession (other.inspect format answers).state := by
  obtain ⟨results, states⟩ := load format answers same
  unfold State.inspect
  dsimp only
  rw [results]
  cases (other.load format answers).result with
  | ok credentials => exact states
  | error error =>
    dsimp only
    split
    · exact states
    · exact states

theorem loadForPassword (same : state.SameSession other) (allowVolatile : Bool) :
    (state.loadForPassword format answers allowVolatile).state.SameSession
      (other.loadForPassword format answers allowVolatile).state := by
  obtain ⟨results, states⟩ := load format answers same
  unfold State.loadForPassword
  dsimp only
  rw [results]
  cases (other.load format answers).result with
  | ok credentials => exact states
  | error error =>
    dsimp only
    split
    · exact ⟨states.backend, states.cache, rfl⟩
    · split
      · exact ⟨states.backend, rfl, rfl⟩
      · exact states

/-- The check on a persisted session leaves the state as the load left it. -/
theorem persisted_state (passwordSupplied : Bool) :
    (state.loadPersisted format answers passwordSupplied).state =
      (if passwordSupplied then state.loadForPassword format answers false
        else state.load format answers).state := by
  unfold State.loadPersisted
  generalize (if passwordSupplied then state.loadForPassword format answers false
    else state.load format answers) = loaded
  dsimp only
  cases loaded.result with
  | error error => rfl
  | ok credentials =>
    dsimp only
    split
    · rfl
    · rfl

section

variable (same : state.SameSession other)

include same

theorem loadPersisted (passwordSupplied : Bool) :
    (state.loadPersisted format answers passwordSupplied).state.SameSession
      (other.loadPersisted format answers passwordSupplied).state := by
  rw [persisted_state, persisted_state]
  cases passwordSupplied with
  | true => exact same.loadForPassword false
  | false => exact (load format answers same).2

theorem saveWithPolicy (credentials : Credentials) (preserve : Bool) :
    (state.saveWithPolicy format answers credentials preserve).result =
        (other.saveWithPolicy format answers credentials preserve).result ∧
      (state.saveWithPolicy format answers credentials preserve).state.SameSession
        (other.saveWithPolicy format answers credentials preserve).state := by
  obtain ⟨backend, cache, persistence, warning⟩ := state
  obtain ⟨backend', cache', persistence', warning'⟩ := other
  obtain ⟨rfl, rfl, rfl⟩ := same
  unfold State.saveWithPolicy
  dsimp only
  split
  · exact ⟨rfl, rfl, rfl, rfl⟩
  · split
    · exact ⟨rfl, rfl, rfl, rfl⟩
    · split
      · exact ⟨rfl, rfl, rfl, rfl⟩
      · exact ⟨rfl, rfl, rfl, rfl⟩

theorem delete : (state.delete answers).state.SameSession (other.delete answers).state := by
  obtain ⟨backend, cache, persistence, warning⟩ := state
  obtain ⟨backend', cache', persistence', warning'⟩ := other
  obtain ⟨rfl, rfl, rfl⟩ := same
  unfold State.delete
  dsimp only
  split
  · exact ⟨rfl, rfl, rfl⟩
  · split
    · exact ⟨rfl, rfl, rfl⟩
    · split
      · exact ⟨rfl, rfl, rfl⟩
      · exact ⟨rfl, rfl, rfl⟩

/-- Operations on states that agree leave states that agree. -/
theorem perform (operation : Operation) :
    (state.perform format answers operation).state.SameSession (other.perform format answers operation).state := by
  cases operation with
  | load => exact (load format answers same).2
  | loadPersisted passwordSupplied => exact same.loadPersisted passwordSupplied
  | loadInteractive => exact same.loadForPassword true
  | inspect => exact same.inspect
  | save credentials => exact (same.saveWithPolicy credentials false).2
  | savePreserving credentials => exact (same.saveWithPolicy credentials true).2
  | delete => exact same.delete

/-- Saves from states that agree have the same result. -/
theorem save_result {operation : Operation} (saves : operation.saves = some (credentials, preserve)) :
    (state.perform format answers operation).result = (other.perform format answers operation).result := by
  cases operation with
  | save saved => exact congrArg (Except.map fun _ => Answer.done) (same.saveWithPolicy saved false).1
  | savePreserving saved => exact congrArg (Except.map fun _ => Answer.done) (same.saveWithPolicy saved true).1
  | _ => cases saves

end

end State.SameSession

/-- The stores agree on everything but the warning. -/
structure SessionStore.Alike (store other : SessionStore) : Prop where
  context : store.context = other.context
  state : store.state.SameSession other.state

namespace SessionStore.Alike

variable {keyringSupported : Bool} {format : Json.Format} {store other : SessionStore}

section

variable (alike : store.Alike other)

include alike

theorem run (label : Operation × Answers) :
    (store.run keyringSupported format label).after.Alike (other.run keyringSupported format label).after := by
  unfold SessionStore.run
  rw [alike.context]
  cases other.context.selection.validate keyringSupported with
  | error error => exact alike
  | ok valid => exact ⟨rfl, alike.state.perform label.1⟩

theorem final (labels : List (Operation × Answers)) :
    (store.runAll keyringSupported format labels).Alike (other.runAll keyringSupported format labels) := by
  induction labels generalizing store other with
  | nil => exact alike
  | cons label rest ih => exact ih (alike.run label)

theorem save_result {label : Operation × Answers} (saves : label.1.saves = some (credentials, preserve)) :
    (store.run keyringSupported format label).result = (other.run keyringSupported format label).result := by
  unfold SessionStore.run
  rw [alike.context]
  cases other.context.selection.validate keyringSupported with
  | error error => rfl
  | ok valid => exact alike.state.save_result saves

theorem usable_iff (credentials : Credentials) : Usable store credentials ↔ Usable other credentials := by
  unfold Usable
  rw [alike.state.cache]

/-- Saves do not tell stores apart that agree. -/
theorem savesAlike (labels : List (Operation × Answers)) :
    SavesAlike keyringSupported format store other labels := by
  rintro first label rest credentials preserve rfl saves
  exact ⟨(alike.final first).save_result saves, (alike.final _).usable_iff credentials⟩

end

end SessionStore.Alike

/-! ## A store that accepts saves, before and after it read -/

namespace State

/-- A save is accepted, and nothing was read yet that would forbid it. -/
def Open (state : State) : Prop :=
  state.cache = .unloaded ∧ (state.persistence = .writable ∨ state.persistence = .replaceInvalid) ∨
    (∃ credentials, state.cache = .loaded credentials) ∧ state.persistence = .writable

/-- A save is accepted, and nothing will be read. -/
def Ready (state : State) : Prop :=
  (∃ credentials, state.cache = .loaded credentials) ∧ state.persistence = .writable

theorem Open.accepts {state : State} (isOpen : state.Open) :
    state.persistence ≠ .unreadable ∧ state.persistence ≠ .volatile := by
  have mode : state.persistence = .writable ∨ state.persistence = .replaceInvalid := by
    rcases isOpen with ⟨_, mode⟩ | ⟨_, writable⟩
    · exact mode
    · exact .inl writable
  rcases mode with mode | mode
  · rw [mode]
    exact ⟨Persistence.noConfusion, Persistence.noConfusion⟩
  · rw [mode]
    exact ⟨Persistence.noConfusion, Persistence.noConfusion⟩

theorem Ready.accepts {state : State} (ready : state.Ready) :
    state.persistence ≠ .unreadable ∧ state.persistence ≠ .volatile :=
  Open.accepts (.inr ready)

/-- Where two states with one backend accept a save, it has one result and they agree after it. -/
theorem save_of_accepts (format : Json.Format) (answers : Answers) {state other : State}
    (backend : state.backend = other.backend)
    (accepts : state.persistence ≠ .unreadable ∧ state.persistence ≠ .volatile)
    (otherAccepts : other.persistence ≠ .unreadable ∧ other.persistence ≠ .volatile)
    (credentials : Credentials) (preserve : Bool) :
    (state.saveWithPolicy format answers credentials preserve).result =
        (other.saveWithPolicy format answers credentials preserve).result ∧
      (state.saveWithPolicy format answers credentials preserve).state.SameSession
        (other.saveWithPolicy format answers credentials preserve).state := by
  unfold saveWithPolicy
  rw [if_neg accepts.1, if_neg otherAccepts.1]
  dsimp only
  rw [if_neg accepts.2, if_neg otherAccepts.2, backend]
  cases other.backend.write answers.write with
  | ok done => exact ⟨rfl, rfl, rfl, rfl⟩
  | error message => exact ⟨rfl, rfl, rfl, rfl⟩

end State

section Ahead

variable {keyringSupported : Bool} {format : Json.Format}

/-- The other store has read already what this one has yet to read; both accept saves. -/
structure Ahead (keyringSupported : Bool) (format : Json.Format) (reading : Reading)
    (store other : SessionStore) (labels : List (Operation × Answers)) : Prop where
  valid : store.context.selection.validate keyringSupported = .ok ()
  context : store.context = other.context
  backend : store.state.backend = other.state.backend
  isOpen : store.state.Open
  ready : other.state.Ready
  readsNext : store.state.cache = .unloaded → ReadsNext keyringSupported format reading store labels

/-- An operation leaves the backend as it is. -/
theorem run_backend (store : SessionStore) (label : Operation × Answers) :
    (store.run keyringSupported format label).after.state.backend = store.state.backend := by
  obtain ⟨operation, answers⟩ := label
  rcases store.run_cases operation answers with ⟨error, _, same⟩ | ⟨outcome, came, same⟩
  · rw [same]
  · rw [same]
    cases came <;> rfl

/-- What is cached and saved stays so: it is read no more, and no save is kept in memory. -/
theorem ready_step (label : Operation × Answers) (ready : store.state.Ready) :
    (store.run keyringSupported format label).after.state.Ready := by
  obtain ⟨⟨credentials, loaded⟩, writable⟩ := ready
  obtain ⟨operation, answers⟩ := label
  rcases store.run_cases operation answers with ⟨error, _, same⟩ | ⟨outcome, came, same⟩
  · rw [same]
    exact ⟨⟨credentials, loaded⟩, writable⟩
  · rw [same]
    cases came with
    | cached looks _ => exact ⟨⟨credentials, loaded⟩, writable⟩
    | found _ unloaded _ | failed _ unloaded _ _ | undecodable _ _ unloaded _ | authorized _ unloaded _
    | fallback unloaded _ _ => exact absurd (unloaded.symm.trans loaded) Cache.noConfusion
    | saveRefused _ _ => exact ⟨⟨credentials, loaded⟩, writable⟩
    | saved _ _ _ _ => exact ⟨⟨_, rfl⟩, rfl⟩
    | saveFailed _ _ _ _ => exact ⟨⟨_, rfl⟩, rfl⟩
    | deleteRefused refused => exact ⟨⟨credentials, loaded⟩, writable⟩
    | saveKept _ volatile | deleteKept volatile =>
      exact absurd (volatile.symm.trans writable) Persistence.noConfusion
    | deleted _ _ => exact ⟨⟨none, rfl⟩, writable⟩
    | deleteFailed _ _ => exact ⟨⟨none, rfl⟩, writable⟩

/-- A store that accepts saves still does after an operation whose read, if any, succeeded;
and has nothing to read any more after one. -/
theorem open_step (isOpen : store.state.Open) {label : Operation × Answers}
    (other : label.1.saves = none)
    (good : ∀ shown, (store.run keyringSupported format label).saw format = some shown →
      shown.isGood = true) :
    (store.run keyringSupported format label).after.state.Open ∧
      ((store.run keyringSupported format label).after.state.cache = .unloaded →
        (store.run keyringSupported format label).saw format = none ∧ store.state.cache = .unloaded) := by
  obtain ⟨operation, answers⟩ := label
  rcases store.run_cases operation answers with ⟨error, _, same⟩ | ⟨outcome, came, same⟩
  · rw [same]
    exact ⟨isOpen, fun unloaded => ⟨Event.saw_nil, unloaded⟩⟩
  · rw [same] at good ⊢
    cases came with
    | cached looks loaded => exact ⟨isOpen, fun unloaded => ⟨Event.saw_nil, unloaded⟩⟩
    | found looks unloaded found =>
      exact ⟨.inr ⟨⟨_, rfl⟩, rfl⟩, fun cached => Cache.noConfusion cached⟩
    | failed looks unloaded shown strict | undecodable looks strict unloaded shown
    | authorized authorizes unloaded shown | fallback unloaded shown allowed =>
      have wentWrong := good _ Event.saw_read
      rw [shown] at wentWrong
      cases wentWrong
    | saveRefused saves _ | saveKept saves _ | saved saves _ _ _ | saveFailed saves _ _ _ =>
      exact absurd (saves.symm.trans other) (Option.some_ne_none _)
    | deleteRefused refused => exact ⟨isOpen, fun unloaded => ⟨Event.saw_nil, unloaded⟩⟩
    | deleteKept volatile => exact absurd volatile isOpen.accepts.2
    | deleted writable _ | deleteFailed writable _ =>
      exact ⟨.inr ⟨⟨none, rfl⟩, writable⟩, fun cached => Cache.noConfusion cached⟩

/-- What is cached is not read again. -/
theorem saw_of_loaded {held : Option Credentials}
    (loaded : store.state.cache = .loaded held) (label : Operation × Answers) :
    (store.run keyringSupported format label).saw format = none := by
  obtain ⟨operation, answers⟩ := label
  rcases store.run_cases operation answers with ⟨error, _, same⟩ | ⟨outcome, came, same⟩
  · rw [same]
    exact Event.saw_nil
  · rw [same]
    cases came with
    | found _ unloaded _ | failed _ unloaded _ _ | undecodable _ _ unloaded _ | authorized _ unloaded _
    | fallback unloaded _ _ => exact absurd (unloaded.symm.trans loaded) Cache.noConfusion
    | saved _ _ _ _ | saveFailed _ _ _ _ => exact Event.saw_write
    | deleted _ _ | deleteFailed _ _ => exact Event.saw_delete
    | _ => exact Event.saw_nil

namespace Ahead

variable {reading : Reading} {store other : SessionStore} {label : Operation × Answers}
  {rest : List (Operation × Answers)}

/-- A step that is no save keeps the other store ahead. -/
theorem step (good : reading.isGood = true)
    (ahead : Ahead keyringSupported format reading store other (label :: rest))
    (noSave : label.1.saves = none) :
    Ahead keyringSupported format reading (store.run keyringSupported format label).after
      (other.run keyringSupported format label).after rest := by
  have shows : ∀ shown, (store.run keyringSupported format label).saw format = some shown →
      shown.isGood = true := by
    intro shown saw
    cases cached : store.state.cache with
    | unloaded =>
      rw [(ahead.readsNext cached).1 shown saw]
      exact good
    | loaded credentials =>
      exact absurd ((saw_of_loaded cached label).symm.trans saw) (Option.some_ne_none _).symm
  obtain ⟨stillOpen, unread⟩ := open_step ahead.isOpen noSave shows
  exact {
    valid := by rw [SessionStore.run_context, ahead.valid]
    context := by rw [SessionStore.run_context, SessionStore.run_context, ahead.context]
    backend := by rw [run_backend, run_backend, ahead.backend]
    isOpen := stillOpen
    ready := ready_step label ahead.ready
    readsNext := fun unloaded => (ahead.readsNext (unread unloaded).2).2 (unread unloaded).1 }

/-- A save brings the stores together. -/
theorem save (ahead : Ahead keyringSupported format reading store other (label :: rest))
    (saves : label.1.saves = some (credentials, preserve)) :
    (store.run keyringSupported format label).result = (other.run keyringSupported format label).result ∧
      (store.run keyringSupported format label).after.Alike (other.run keyringSupported format label).after := by
  have same := State.save_of_accepts format label.2 ahead.backend ahead.isOpen.accepts
    ahead.ready.accepts credentials preserve
  unfold SessionStore.run
  rw [← ahead.context, ahead.valid]
  obtain ⟨operation, answers⟩ := label
  cases operation with
  | save saved =>
    cases saves
    exact ⟨congrArg (Except.map fun _ => Answer.done) same.1, rfl, same.2⟩
  | savePreserving saved =>
    cases saves
    exact ⟨congrArg (Except.map fun _ => Answer.done) same.1, rfl, same.2⟩
  | _ => cases saves

/-- Saves do not tell the stores apart. -/
theorem savesAlike (good : reading.isGood = true) {labels : List (Operation × Answers)}
    (ahead : Ahead keyringSupported format reading store other labels) :
    SavesAlike keyringSupported format store other labels := by
  intro first
  induction first generalizing store other labels with
  | nil =>
    rintro label rest credentials preserve rfl saves
    obtain ⟨results, alike⟩ := ahead.save saves
    exact ⟨results, (alike.final rest).usable_iff credentials⟩
  | cons earlier first ih =>
    rintro label rest credentials preserve rfl saves
    cases earlierSaves : earlier.1.saves with
    | none =>
      exact ih (ahead.step good earlierSaves) label rest credentials preserve rfl saves
    | some saved =>
      obtain ⟨_, alike⟩ := ahead.save earlierSaves
      exact alike.savesAlike _ first label rest credentials preserve rfl saves

end Ahead

end Ahead

/-! ## An inspection in a run -/

section Inspection

variable {keyringSupported : Bool} {format : Json.Format} {store : SessionStore} {answers : Answers}

theorem inspected_of_valid (valid : store.context.selection.validate keyringSupported = .ok ()) :
    (inspected keyringSupported format store answers).state = (store.state.load format answers).state := by
  unfold inspected SessionStore.run
  rw [valid]
  dsimp only [State.perform, Outcome.map, State.inspect]
  cases (store.state.load format answers).result with
  | ok credentials => rfl
  | error error =>
    dsimp only
    split
    · rfl
    · rfl

theorem inspected_of_invalid {error : SessionStoreError}
    (invalid : store.context.selection.validate keyringSupported = .error error) :
    inspected keyringSupported format store answers = store := by
  unfold inspected
  rw [SessionStore.run_of_invalid invalid]

theorem inspected_context : (inspected keyringSupported format store answers).context = store.context :=
  store.run_context _

/-- A run behind an inspection is one on the selection of the store. -/
theorem runAll_inspected_context (labels : List (Operation × Answers)) :
    ((inspected keyringSupported format store answers).runAll keyringSupported format labels).context = store.context :=
  (final_context _ labels).trans inspected_context

/-- A selection that does not fit the platform is not refused as an unreadable session is. -/
theorem unreadableStore_ne_of_invalid {error : SessionStoreError}
    (invalid : store.context.selection.validate keyringSupported = .error error) :
    Except.error error ≠ (.error .unreadableStore : Except SessionStoreError Answer) := by
  rintro ⟨⟩
  unfold Selection.validate at invalid
  split at invalid
  · cases invalid
  · cases invalid

/-- An inspection whose read goes wrong leaves the store as a failed load does. -/
theorem inspected_of_bad (valid : store.context.selection.validate keyringSupported = .ok ())
    (unloaded : store.state.cache = .unloaded) (bad : (store.state.reading format answers).isGood = false) :
    ∃ error, (inspected keyringSupported format store answers).state = store.state.warned .unreadable error := by
  rw [inspected_of_valid valid, State.load_of_unloaded unloaded]
  cases shown : store.state.reading format answers with
  | failed error => exact ⟨error, rfl⟩
  | undecodable => exact ⟨_, rfl⟩
  | found credentials => rw [shown] at bad; cases bad

/-- An inspection whose read succeeds leaves the store as a load does. -/
theorem inspected_of_good (valid : store.context.selection.validate keyringSupported = .ok ())
    (unloaded : store.state.cache = .unloaded) (good : (store.state.reading format answers).isGood = true) :
    ∃ credentials, (inspected keyringSupported format store answers).state = store.state.readable credentials := by
  rw [inspected_of_valid valid, State.load_of_unloaded unloaded]
  cases shown : store.state.reading format answers with
  | failed error => rw [shown] at good; cases good
  | undecodable => rw [shown] at good; cases good
  | found credentials => exact ⟨credentials, rfl⟩

/-- A store that has read nothing is not in volatile mode. -/
theorem not_volatile_step (label : Operation × Answers)
    (fresh : store.state.cache = .unloaded → store.state.persistence ≠ .volatile)
    (unloaded : (store.run keyringSupported format label).after.state.cache = .unloaded) :
    (store.run keyringSupported format label).after.state.persistence ≠ .volatile := by
  obtain ⟨operation, answers⟩ := label
  rcases store.run_cases operation answers with ⟨error, _, same⟩ | ⟨outcome, came, same⟩
  · rw [same] at unloaded ⊢
    exact fresh unloaded
  · rw [same] at unloaded ⊢
    cases came with
    | cached _ _ | saveRefused _ _ | deleteRefused _ => exact fresh unloaded
    | failed _ _ _ _ | undecodable _ _ _ _ | authorized _ _ _ => exact Persistence.noConfusion
    | _ => cases unloaded

theorem not_volatile_of_reachable {config : Config} (labels : List (Operation × Answers))
    (unloaded : (storeAfter keyringSupported format config labels).state.cache = .unloaded) :
    (storeAfter keyringSupported format config labels).state.persistence ≠ .volatile :=
  final_invariant
    (fun store : SessionStore => store.state.cache = .unloaded → store.state.persistence ≠ .volatile)
    (fun _ label fresh unloaded => not_volatile_step label fresh unloaded)
    (fun _ => Persistence.noConfusion) labels unloaded

/-- Where everything is cached nothing is refused. -/
theorem not_refused_of_ready (ready : store.state.Ready) (label : Operation × Answers) :
    (store.run keyringSupported format label).result ≠ .error .unreadableStore := by
  obtain ⟨⟨credentials, loaded⟩, writable⟩ := ready
  obtain ⟨operation, answers⟩ := label
  rcases store.run_cases operation answers with ⟨error, invalid, same⟩ | ⟨outcome, came, same⟩
  · rw [same]
    exact unreadableStore_ne_of_invalid invalid
  · rw [same]
    intro refused
    cases came with
    | cached looks _ =>
      cases operation with
      | loadPersisted passwordSupplied =>
        simp only [Operation.answer] at refused
        split at refused
        · cases refused
        · cases refused
      | _ => cases refused
    | found _ unloaded _ | failed _ unloaded _ _ | undecodable _ _ unloaded _ | authorized _ unloaded _
    | fallback unloaded _ _ => exact absurd (unloaded.symm.trans loaded) Cache.noConfusion
    | saveRefused _ unreadable => exact absurd (unreadable.symm.trans writable) Persistence.noConfusion
    | deleteRefused mode =>
      rw [writable] at mode
      rcases mode with mode | mode
      · cases mode
      · cases mode
    | _ => cases refused

/-- Where the store has cached what it found, or the inspection's read agrees with the mode,
the inspection is not noticed by the saves that follow. -/
theorem savesAlike_inspected (fresh : store.state.cache = .unloaded → store.state.persistence ≠ .volatile)
    (harmless : store.state.cache ≠ .unloaded ∨ Agrees format store answers)
    (unchanged : ReadsNext keyringSupported format (store.state.reading format answers) store future) :
    SavesAlike keyringSupported format store (inspected keyringSupported format store answers) future := by
  cases valid : store.context.selection.validate keyringSupported with
  | error error =>
    rw [inspected_of_invalid valid]
    exact SessionStore.Alike.savesAlike ⟨rfl, .refl _⟩ future
  | ok _ =>
    cases cached : store.state.cache with
    | loaded credentials =>
      refine SessionStore.Alike.savesAlike ⟨inspected_context.symm, ?_⟩ future
      rw [inspected_of_valid valid, State.load_of_loaded cached]
      exact .refl _
    | unloaded =>
      have agrees := harmless.resolve_left fun loaded => loaded cached
      cases shown : (store.state.reading format answers).isGood with
      | false =>
        obtain ⟨error, same⟩ := inspected_of_bad valid cached shown
        have unreadable : store.state.persistence = .unreadable := by
          by_contra readable
          exact Bool.false_ne_true (shown.symm.trans (agrees.mp readable))
        refine SessionStore.Alike.savesAlike ⟨inspected_context.symm, ?_⟩ future
        rw [same]
        exact ⟨rfl, rfl, unreadable⟩
      | true =>
        obtain ⟨credentials, same⟩ := inspected_of_good valid cached shown
        have readable := agrees.mpr shown
        have isOpen : store.state.Open := by
          cases mode : store.state.persistence with
          | writable => exact .inl ⟨cached, .inl mode⟩
          | replaceInvalid => exact .inl ⟨cached, .inr mode⟩
          | unreadable => exact absurd mode readable
          | volatile => exact absurd mode (fresh cached)
        refine Ahead.savesAlike shown {
          valid := valid
          context := inspected_context.symm
          backend := by rw [same]; rfl
          isOpen := isOpen
          ready := by rw [same]; exact ⟨⟨credentials, rfl⟩, rfl⟩
          readsNext := fun _ => unchanged }

/-- An inspection whose read goes wrong, on a store that has cached nothing, forbids changes
as a failed load does. -/
theorem kept_after_inspected (unloaded : store.state.cache = .unloaded)
    (bad : (store.state.reading format answers).isGood = false)
    (unlifted : ∀ event ∈ (inspected keyringSupported format store answers).events keyringSupported format future,
      event.readGood format = false ∧ event.authorized format = false)
    {event : Event} (mem : event ∈
      (inspected keyringSupported format store answers).events keyringSupported format future) :
    event.changes = false := by
  obtain ⟨before, later, split⟩ := List.append_of_mem mem
  obtain ⟨first, label, second, rfl, rfl, rfl, -⟩ := history_eq_append_cons split
  by_contra changed
  have changes := (Bool.not_eq_false _).mp changed
  obtain ⟨readable, kept⟩ := mode_of_changes changes
  cases valid : store.context.selection.validate keyringSupported with
  | error error =>
    rw [SessionStore.run_of_invalid (by rw [runAll_inspected_context, valid])] at changes
    exact Bool.false_ne_true changes
  | ok _ =>
    obtain ⟨error, same⟩ := inspected_of_bad valid unloaded bad
    have start : (inspected keyringSupported format store answers).state.Guarded := by
      rw [same]
      exact .inl ⟨unloaded, rfl⟩
    have guarded : ((inspected keyringSupported format store answers).runAll keyringSupported format
        first).state.Guarded :=
      final_of_none (fun store : SessionStore => store.state.Guarded)
        (fun event : Event => event.readGood format = true ∨ event.authorized format = true)
        (fun _ label guarded => guarded_step label guarded) start fun event mem lifts => by
          obtain ⟨notGood, notAuthorized⟩ :=
            unlifted event (by rw [split]; exact List.mem_append_left _ mem)
          rcases lifts with good | authorized
          · exact Bool.false_ne_true (notGood.symm.trans good)
          · exact Bool.false_ne_true (notAuthorized.symm.trans authorized)
    rcases guarded with ⟨_, unreadable⟩ | ⟨_, volatile⟩
    · exact readable unreadable
    · exact kept volatile

/-- After an inspection that is the first read to succeed nothing is refused. -/
theorem not_refused_after_inspected (settled : store.state.Settled)
    (unreadable : store.state.persistence = .unreadable)
    (good : (store.state.reading format answers).isGood = true) {event : Event}
    (mem : event ∈ (inspected keyringSupported format store answers).events keyringSupported format future) :
    event.result ≠ .error .unreadableStore := by
  obtain ⟨before, later, split⟩ := List.append_of_mem mem
  obtain ⟨first, label, second, -, -, rfl, -⟩ := history_eq_append_cons split
  have unloaded : store.state.cache = .unloaded := by
    cases cached : store.state.cache with
    | unloaded => rfl
    | loaded credentials =>
      rcases settled _ cached with mode | mode
      · exact absurd (mode.symm.trans unreadable) Persistence.noConfusion
      · exact absurd (mode.symm.trans unreadable) Persistence.noConfusion
  cases valid : store.context.selection.validate keyringSupported with
  | error error =>
    rw [SessionStore.run_of_invalid (by rw [runAll_inspected_context, valid])]
    exact unreadableStore_ne_of_invalid valid
  | ok _ =>
    obtain ⟨credentials, same⟩ := inspected_of_good valid unloaded good
    have start : (inspected keyringSupported format store answers).state.Ready := by
      rw [same]
      exact ⟨⟨credentials, rfl⟩, rfl⟩
    refine not_refused_of_ready ?_ label
    exact final_invariant (fun store : SessionStore => store.state.Ready) (fun _ => ready_step) start first

end Inspection

/-- Inserting an inspection changes no later save where the store has cached what it found,
or the inspection's read agrees with the mode of the store. The first read of a store, if it
is an inspection's and goes wrong, forbids changes until a read succeeds or a password is
supplied for bytes that are not a session; and after an inspection that is the first read to
succeed nothing is refused. -/
theorem inspection_changes_no_save (keyringSupported : Bool) (format : Json.Format) (config : Config)
    (past : List (Operation × Answers)) (answers : Answers) (future : List (Operation × Answers)) :
    ((storeAfter keyringSupported format config past).state.cache ≠ .unloaded ∨
        Agrees format (storeAfter keyringSupported format config past) answers →
      ReadsNext keyringSupported format ((storeAfter keyringSupported format config past).state.reading format answers)
        (storeAfter keyringSupported format config past) future →
      SavesAlike keyringSupported format (storeAfter keyringSupported format config past)
        (inspected keyringSupported format (storeAfter keyringSupported format config past) answers) future) ∧
    ((storeAfter keyringSupported format config past).state.cache = .unloaded →
      (storeAfter keyringSupported format config past).state.persistence = .writable →
      ((storeAfter keyringSupported format config past).state.reading format answers).isGood = false →
      (∀ event ∈ (inspected keyringSupported format (storeAfter keyringSupported format config past)
          answers).events keyringSupported format future,
        event.readGood format = false ∧ event.authorized format = false) →
      ∀ event ∈ (inspected keyringSupported format (storeAfter keyringSupported format config past)
          answers).events keyringSupported format future, event.changes = false) ∧
    ((storeAfter keyringSupported format config past).state.persistence = .unreadable →
      ((storeAfter keyringSupported format config past).state.reading format answers).isGood = true →
      ∀ event ∈ (inspected keyringSupported format (storeAfter keyringSupported format config past)
          answers).events keyringSupported format future, event.result ≠ .error .unreadableStore) :=
  ⟨fun harmless unchanged => savesAlike_inspected (not_volatile_of_reachable past) harmless unchanged,
    fun unloaded _ bad unlifted _ => kept_after_inspected unloaded bad unlifted,
    fun unreadable good _ => not_refused_after_inspected (settled_of_reachable past) unreadable good⟩

/-- An inspection of a store that has found its keyring locked. -/
theorem inspection_changes_no_save_locked :
    SavesAlike true noFormat (storeAfter true noFormat meConfig [(.load, lockedAnswers)])
      (inspected true noFormat (storeAfter true noFormat meConfig [(.load, lockedAnswers)]) lockedAnswers)
      [(.save someCredentials, lockedAnswers)] := by
  have agrees : Agrees noFormat (storeAfter true noFormat meConfig [(.load, lockedAnswers)]) lockedAnswers := by
    unfold Agrees
    decide
  refine (inspection_changes_no_save true noFormat meConfig [(.load, lockedAnswers)] lockedAnswers
    [(.save someCredentials, lockedAnswers)]).1 (.inr agrees) ⟨fun _ saw => ?_, fun _ => trivial⟩
  cases saw

/-- On a new store whose keyring is locked, a save that would write is refused after an
inspection. -/
theorem locked_keyring_inspected_refuses : ¬ ∀ (keyringSupported : Bool) (format : Json.Format) (config : Config)
    (past : List (Operation × Answers)) (answers : Answers) (future : List (Operation × Answers)),
    ReadsNext keyringSupported format ((storeAfter keyringSupported format config past).state.reading format answers)
      (storeAfter keyringSupported format config past) future →
    SavesAlike keyringSupported format (storeAfter keyringSupported format config past)
      (inspected keyringSupported format (storeAfter keyringSupported format config past) answers) future := by
  intro claim
  have alike := claim true noFormat meConfig [] lockedAnswers [(.save someCredentials, lockedAnswers)]
    ⟨fun _ saw => (by cases saw), fun _ => trivial⟩ [] _ [] someCredentials false rfl rfl
  cases alike.1

end TutaBridge.Session
