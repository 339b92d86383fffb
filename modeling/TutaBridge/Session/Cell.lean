import TutaBridge.Session.Runs

/-!
# A session store is a cell

The cell holds what the last of the reads, saves and deletes left: reads that succeeded,
saves and deletes that were not refused, and the fallback to a session in memory. Every
load that succeeds returns the cell, and a load of the persisted session returns only what
a backend has.
-/

namespace TutaBridge.Session

open TutaBridge.Std

variable {credentials : Option Credentials} {label : Operation × Answers}

namespace Event

variable (format : Json.Format)

/-- The operation was refused because the saved session could not be read. -/
def refused (event : Event) : Bool :=
  match event.result with
  | .error error => error = .unreadableStore
  | .ok _ => false

/-- The operation succeeded. -/
def succeeded (event : Event) : Bool :=
  match event.result with
  | .error _ => false
  | .ok _ => true

/-- The credentials the event saves, unless it was refused. -/
def saved (event : Event) : Option Credentials :=
  if event.refused then none else event.operation.saves.map (·.1)

/-- What the event puts into the cell. -/
def sets (event : Event) : Option (Option Credentials) :=
  match event.saw format with
  | some (.found credentials) => some credentials
  | some (.failed _) =>
    if event.operation = .loadInteractive ∧ event.succeeded = true then some none else none
  | some .undecodable => none
  | none =>
    if event.operation = .delete ∧ event.refused = false then some none
    else event.saved.map some

/-- What a load that succeeded returned. -/
def returned (event : Event) : Option (Option Credentials) :=
  match event.result with
  | .ok (.credentials credentials) => some credentials
  | _ => none

/-- The credentials come from the backend: the event read them, or wrote them. -/
def persists (credentials : Credentials) (event : Event) : Prop :=
  event.saw format = some (.found (some credentials)) ∨
    event.saved = some credentials ∧ event.changes = true ∧ event.succeeded = true

/-- An operation of the backend failed. -/
def backendFailed (event : Event) : Bool :=
  event.readBad format || event.changes && !event.succeeded

end Event

/-- The value of the cell after a history. -/
def cell (format : Json.Format) (events : List Event) : Option (Option Credentials) :=
  (events.filterMap (Event.sets format)).getLast?

theorem cell_concat (format : Json.Format) (events : List Event) (event : Event) :
    cell format (events ++ [event]) = (event.sets format).or (cell format events) := by
  unfold cell
  rw [List.filterMap_append, List.getLast?_append]
  cases set : event.sets format with
  | none => rw [List.filterMap_cons_none set]; rfl
  | some value => rw [List.filterMap_cons_some set]; rfl

theorem Event.returned_eq_some_iff {event : Event} :
    event.returned = some credentials ↔ event.result = .ok (.credentials credentials) := by
  unfold Event.returned
  cases event.result with
  | error error => simp
  | ok answer => cases answer <;> simp

section Sets

variable {format : Json.Format} {event : Event} {credentials : Credentials} {preserve : Bool}

/-- A save that was not refused saved its credentials. -/
theorem Event.saved_of_saves (saves : event.operation.saves = some (credentials, preserve))
    (accepted : event.refused = false) : event.saved = some credentials := by
  unfold Event.saved
  rw [accepted, saves]
  rfl

/-- A save that was not refused puts its credentials into the cell. -/
theorem Event.sets_of_saves (saves : event.operation.saves = some (credentials, preserve))
    (accepted : event.refused = false) (unread : event.saw format = none) :
    event.sets format = some (some credentials) := by
  have noDelete : event.operation ≠ .delete := by
    intro delete
    rw [delete] at saves
    cases saves
  unfold Event.sets
  rw [unread, Event.saved_of_saves saves accepted]
  simp [noDelete]

/-- What was refused puts nothing into the cell. -/
theorem Event.sets_of_refused (refused : event.refused = true) (unread : event.saw format = none) :
    event.sets format = none := by
  unfold Event.sets Event.saved
  rw [unread, refused]
  simp

/-- A look that does not read puts nothing into the cell. -/
theorem Event.sets_of_looks (looks : event.operation.looks = true) (unread : event.saw format = none) :
    event.sets format = none := by
  have noDelete : event.operation ≠ .delete := by
    intro delete
    rw [delete] at looks
    cases looks
  unfold Event.sets Event.saved
  rw [unread, Operation.saves_of_looks looks]
  simp [noDelete]

end Sets

/-- A look that succeeds returns what it found. -/
theorem eq_of_answer {operation : Operation} {state : State} {credentials found : Option Credentials}
    (answered : operation.answer state found = .ok (.credentials credentials)) : found = credentials := by
  unfold Operation.answer at answered
  cases operation with
  | inspect => cases answered
  | loadPersisted passwordSupplied =>
    dsimp only at answered
    split at answered
    · cases answered
    · cases answered
      rfl
  | _ =>
    cases answered
    rfl

/-- A look that is not answered returns no session. -/
theorem failure_ne_credentials {operation : Operation} {error : SessionStoreError} :
    operation.failure error ≠ .ok (.credentials credentials) := by
  unfold Operation.failure
  intro answered
  cases operation with
  | inspect =>
    dsimp only at answered
    split at answered <;> cases answered
  | _ => cases answered

section Step

variable {keyringSupported : Bool} {format : Json.Format} {store : SessionStore}

/-- What is cached after an operation was put into the cell by it, or was cached before and
the cell is as it was. -/
theorem cached_step (valid : store.context.selection.validate keyringSupported = .ok ())
    (label : Operation × Answers)
    (cached : (store.run keyringSupported format label).after.state.cache = .loaded credentials) :
    (store.run keyringSupported format label).sets format = some credentials ∨
      (store.run keyringSupported format label).sets format = none ∧ store.state.cache = .loaded credentials := by
  obtain ⟨operation, answers⟩ := label
  obtain ⟨outcome, came, same⟩ := SessionStore.run_of_valid valid operation answers
  rw [same] at cached ⊢
  cases came with
  | cached looks loaded => exact .inr ⟨Event.sets_of_looks looks Event.saw_nil, cached⟩
  | found looks unloaded found =>
    cases cached
    exact .inl (by simp [Event.sets, Event.saw, found])
  | failed looks unloaded failed strict => exact absurd (unloaded.symm.trans cached) Cache.noConfusion
  | undecodable looks strict unloaded undecodable =>
    exact absurd (unloaded.symm.trans cached) Cache.noConfusion
  | authorized authorizes unloaded undecodable =>
    exact absurd (unloaded.symm.trans cached) Cache.noConfusion
  | fallback unloaded failed allowed =>
    cases cached
    exact .inl (by simp [Event.sets, Event.saw, failed, Event.succeeded])
  | saveRefused saves unreadable => exact .inr ⟨Event.sets_of_refused rfl Event.saw_nil, cached⟩
  | saveKept saves volatile =>
    cases cached
    exact .inl (Event.sets_of_saves saves rfl Event.saw_nil)
  | saved saves readable kept written =>
    cases cached
    exact .inl (Event.sets_of_saves saves rfl Event.saw_write)
  | saveFailed saves readable kept failed =>
    cases cached
    exact .inl (Event.sets_of_saves saves rfl Event.saw_write)
  | deleteRefused refused => exact .inr ⟨Event.sets_of_refused rfl Event.saw_nil, cached⟩
  | deleteKept volatile =>
    cases cached
    exact .inl (by simp [Event.sets, Event.saw, Event.refused])
  | deleted writable done =>
    cases cached
    exact .inl (by simp [Event.sets, Event.saw, Event.refused])
  | deleteFailed writable failed =>
    cases cached
    exact .inl (by simp [Event.sets, Event.saw, Event.refused])

/-- A load that succeeds returns what is cached after it, but for bytes that are not a
session, of which a load with a password tells nothing. -/
theorem returned_step (returned : (store.run keyringSupported format label).returned = some credentials) :
    (store.run keyringSupported format label).authorized format = true ∧ credentials = none ∨
      (store.run keyringSupported format label).saw format ≠ some .undecodable ∧
        (store.run keyringSupported format label).after.state.cache = .loaded credentials := by
  obtain ⟨operation, answers⟩ := label
  rcases store.run_cases operation answers with ⟨error, _, same⟩ | ⟨outcome, came, same⟩
  · rw [same, Event.returned_eq_some_iff] at returned
    cases returned
  · rw [same, Event.returned_eq_some_iff] at returned
    rw [same]
    cases came with
    | cached looks loaded => exact .inr ⟨by simp [Event.saw], eq_of_answer returned ▸ loaded⟩
    | found looks unloaded found =>
      exact .inr ⟨by simp [Event.saw, found], eq_of_answer returned ▸ rfl⟩
    | failed looks unloaded failed strict => exact absurd returned failure_ne_credentials
    | undecodable looks strict unloaded undecodable => exact absurd returned failure_ne_credentials
    | authorized authorizes unloaded undecodable =>
      cases returned
      exact .inl ⟨by simp [Event.authorized, Event.saw, authorizes, undecodable], rfl⟩
    | fallback unloaded failed allowed =>
      cases returned
      exact .inr ⟨by simp [Event.saw, failed], rfl⟩
    | _ => cases returned

/-- What is cached, was persisted and has no warning about it. -/
def State.Backed (state : State) (credentials : Credentials) : Prop :=
  state.cache = .loaded (some credentials) ∧ state.persistence = .writable ∧ state.warning = none

/-- A load of the persisted session returns what is backed. -/
theorem backed_of_loadPersisted {passwordSupplied : Bool} {answers : Answers} {credentials : Credentials}
    (settled : store.state.Settled)
    (returned : (store.run keyringSupported format (.loadPersisted passwordSupplied, answers)).returned =
      some (some credentials)) :
    (store.run keyringSupported format (.loadPersisted passwordSupplied, answers)).after.state.Backed credentials := by
  rcases store.run_cases (.loadPersisted passwordSupplied) answers with
    ⟨error, _, same⟩ | ⟨outcome, came, same⟩
  · rw [same, Event.returned_eq_some_iff] at returned
    cases returned
  · rw [same, Event.returned_eq_some_iff] at returned
    rw [same]
    cases came with
    | cached looks loaded =>
      dsimp only at returned
      cases eq_of_answer returned
      simp only [Operation.answer] at returned
      split at returned
      · cases returned
      · rename_i accepted
        obtain ⟨persistent, silent⟩ := not_or.mp accepted
        refine ⟨loaded, (settled _ loaded).resolve_right persistent, ?_⟩
        simpa using silent
    | found looks unloaded found =>
      dsimp only at returned
      cases eq_of_answer returned
      exact ⟨rfl, rfl, rfl⟩
    | failed looks unloaded failed strict => cases returned
    | undecodable looks strict unloaded undecodable => cases returned
    | authorized authorizes unloaded undecodable => cases returned
    | saveRefused saves _ | saveKept saves _ | saved saves _ _ _ | saveFailed saves _ _ _ => cases saves

/-- What is backed after an operation was read or written by it, or was backed before and
no operation of the backend failed. -/
theorem backed_step {credentials : Credentials}
    (backed : (store.run keyringSupported format label).after.state.Backed credentials) :
    (store.run keyringSupported format label).persists format credentials ∨ store.state.Backed credentials ∧
        (store.run keyringSupported format label).backendFailed format = false := by
  obtain ⟨operation, answers⟩ := label
  rcases store.run_cases operation answers with ⟨error, _, same⟩ | ⟨outcome, came, same⟩
  · rw [same] at backed ⊢
    exact .inr ⟨backed, by simp [Event.backendFailed, Event.readBad, Event.saw, Event.changes]⟩
  · rw [same] at backed ⊢
    obtain ⟨cached, writable, silent⟩ := backed
    cases came with
    | cached looks loaded =>
      exact .inr ⟨⟨cached, writable, silent⟩,
        by simp [Event.backendFailed, Event.readBad, Event.saw, Event.changes]⟩
    | found looks unloaded found =>
      cases cached
      exact .inl (.inl (by simp [Event.saw, found]))
    | failed looks unloaded failed strict => cases writable
    | undecodable looks strict unloaded undecodable => cases writable
    | authorized authorizes unloaded undecodable => cases writable
    | fallback unloaded failed allowed => cases writable
    | saveRefused saves unreadable => exact absurd (unreadable.symm.trans writable) Persistence.noConfusion
    | saveKept saves volatile => exact absurd (volatile.symm.trans writable) Persistence.noConfusion
    | saved saves readable kept written =>
      cases cached
      exact .inl (.inr ⟨Event.saved_of_saves saves rfl, by simp [Event.changes], rfl⟩)
    | saveFailed saves readable kept failed => cases silent
    | deleteRefused refused =>
      exact .inr ⟨⟨cached, writable, silent⟩,
        by simp [Event.backendFailed, Event.readBad, Event.saw, Event.changes]⟩
    | deleteKept volatile => exact absurd (volatile.symm.trans writable) Persistence.noConfusion
    | deleted mode done => cases cached
    | deleteFailed mode failed => cases cached

/-- A load returns what is cached. -/
theorem eq_of_cached {credentials held : Option Credentials} (loaded : store.state.cache = .loaded held)
    (returned : (store.run keyringSupported format label).returned = some credentials) : held = credentials := by
  obtain ⟨operation, answers⟩ := label
  rcases store.run_cases operation answers with ⟨error, _, same⟩ | ⟨outcome, came, same⟩
  · rw [same, Event.returned_eq_some_iff] at returned
    cases returned
  · rw [same, Event.returned_eq_some_iff] at returned
    cases came with
    | cached looks cached =>
      cases loaded.symm.trans cached
      exact eq_of_answer returned
    | found _ unloaded _ | failed _ unloaded _ _ | undecodable _ _ unloaded _ | authorized _ unloaded _
    | fallback unloaded _ _ => exact absurd (unloaded.symm.trans loaded) Cache.noConfusion
    | _ => cases returned

/-- Something is cached, and not these credentials. -/
def State.Forgot (credentials : Credentials) (state : State) : Prop :=
  ∃ held, state.cache = .loaded held ∧ held ≠ some credentials

/-- A session that was deleted is cached again only by saving it. -/
theorem forgotten_step {credentials : Credentials} (label : Operation × Answers)
    (forgot : store.state.Forgot credentials) : (store.run keyringSupported format label).saved = some credentials ∨
      (store.run keyringSupported format label).after.state.Forgot credentials := by
  obtain ⟨held, loaded, other⟩ := forgot
  obtain ⟨operation, answers⟩ := label
  rcases store.run_cases operation answers with ⟨error, _, same⟩ | ⟨outcome, came, same⟩
  · rw [same]
    exact .inr ⟨held, loaded, other⟩
  · rw [same]
    cases came with
    | cached looks cached => exact .inr ⟨held, loaded, other⟩
    | found looks unloaded found => exact absurd (unloaded.symm.trans loaded) Cache.noConfusion
    | failed looks unloaded failed strict => exact absurd (unloaded.symm.trans loaded) Cache.noConfusion
    | undecodable looks strict unloaded undecodable =>
      exact absurd (unloaded.symm.trans loaded) Cache.noConfusion
    | authorized authorizes unloaded undecodable =>
      exact absurd (unloaded.symm.trans loaded) Cache.noConfusion
    | fallback unloaded failed allowed => exact absurd (unloaded.symm.trans loaded) Cache.noConfusion
    | saveRefused saves unreadable => exact .inr ⟨held, loaded, other⟩
    | saveKept saves volatile | saved saves readable kept written | saveFailed saves readable kept failed =>
      refine Classical.or_iff_not_imp_left.mpr fun notSaved => ⟨_, rfl, fun same => notSaved ?_⟩
      cases same
      exact Event.saved_of_saves saves rfl
    | deleteRefused refused => exact .inr ⟨held, loaded, other⟩
    | deleteKept volatile => exact .inr ⟨none, rfl, (Option.some_ne_none _).symm⟩
    | deleted writable done => exact .inr ⟨none, rfl, (Option.some_ne_none _).symm⟩
    | deleteFailed writable failed => exact .inr ⟨none, rfl, (Option.some_ne_none _).symm⟩

/-- A delete of what is cached leaves nothing cached. -/
theorem deleted_step (valid : store.context.selection.validate keyringSupported = .ok ())
    (settled : store.state.Settled) (answers : Answers) {held : Option Credentials}
    (loaded : store.state.cache = .loaded held) :
    (store.run keyringSupported format (.delete, answers)).after.state.cache = .loaded none := by
  obtain ⟨outcome, came, same⟩ := SessionStore.run_of_valid valid .delete answers
  rw [same]
  cases came with
  | cached looks _ | found looks _ _ | failed looks _ _ _ | undecodable looks _ _ _ => cases looks
  | authorized authorizes _ _ => cases authorizes
  | saveRefused saves _ | saveKept saves _ | saved saves _ _ _ | saveFailed saves _ _ _ => cases saves
  | deleteRefused refused =>
    rcases settled _ loaded with mode | mode <;> rw [mode] at refused <;> simp at refused
  | deleteKept volatile => rfl
  | deleted writable done => rfl
  | deleteFailed writable failed => rfl

/-- A load succeeds only where the selection fits the platform. -/
theorem valid_of_returned (returned : (store.run keyringSupported format label).returned = some credentials) :
    store.context.selection.validate keyringSupported = .ok () := by
  obtain ⟨operation, answers⟩ := label
  rcases store.run_cases operation answers with ⟨error, _, same⟩ | _
  · rw [same, Event.returned_eq_some_iff] at returned
    cases returned
  · cases valid : store.context.selection.validate keyringSupported with
    | ok _ => rfl
    | error error =>
      unfold SessionStore.run at returned
      rw [valid, Event.returned_eq_some_iff] at returned
      cases returned

end Step

/-! ## Over a history -/

section Reachable

variable {keyringSupported : Bool} {format : Json.Format} {config : Config}

theorem final_context (store : SessionStore) (labels : List (Operation × Answers)) :
    (final (SessionStore.run keyringSupported format) Event.after store labels).context = store.context :=
  final_invariant (fun other : SessionStore => other.context = store.context)
    (fun other label same => (other.run_context label).trans same) rfl labels

/-- Where the selection fits the platform, what is cached is the cell. -/
theorem cell_of_cached (labels : List (Operation × Answers))
    (valid : (storeAfter keyringSupported format config labels).context.selection.validate keyringSupported = .ok ())
    (cached : (storeAfter keyringSupported format config labels).state.cache = .loaded credentials) :
    cell format (storeHistory keyringSupported format config labels) = some credentials := by
  refine final_of_history (fun events (store : SessionStore) =>
      store.context.selection.validate keyringSupported = .ok () →
        ∀ credentials, store.state.cache = .loaded credentials → cell format events = some credentials)
    (fun events store label linked valid credentials cached => ?_)
    (fun _ credentials cached => Cache.noConfusion cached) labels valid credentials cached
  rw [SessionStore.run_context] at valid
  rw [cell_concat]
  rcases cached_step valid label cached with sets | ⟨keeps, earlier⟩
  · rw [sets]
    rfl
  · rw [keeps]
    exact linked valid credentials earlier

/-- What is backed was read or written, and no operation of the backend failed since. -/
theorem exists_source_of_backed (labels : List (Operation × Answers)) {credentials : Credentials}
    (backed : (storeAfter keyringSupported format config labels).state.Backed credentials) : ∃ earlier source since,
      storeHistory keyringSupported format config labels = earlier ++ source :: since ∧
        source.persists format credentials ∧ ∀ other ∈ since, other.backendFailed format = false := by
  refine final_of_history (fun events (store : SessionStore) => store.state.Backed credentials →
      ∃ earlier source since, events = earlier ++ source :: since ∧
        source.persists format credentials ∧ ∀ other ∈ since, other.backendFailed format = false)
    (fun events store label linked backed => ?_) (fun backed => Cache.noConfusion backed.1) labels backed
  rcases backed_step backed with persists | ⟨earlierBacked, succeeded⟩
  · exact ⟨events, _, [], rfl, persists, fun _ mem => absurd mem List.not_mem_nil⟩
  · obtain ⟨earlier, source, since, rfl, persists, noneFailed⟩ := linked earlierBacked
    refine ⟨earlier, source, since ++ [_], List.append_assoc _ _ _, persists, fun other mem => ?_⟩
    rcases List.mem_append.mp mem with before | last
    · exact noneFailed other before
    · rw [List.mem_singleton.mp last]
      exact succeeded

/-- Every load that succeeds returns the cell, or nothing for undecodable bytes under a
password; a load of the persisted session returns only what was read from the backend or
written to it with no failed operation of the backend since; and a session that was deleted
is returned again only if it is saved again. -/
theorem store_refines_cell (keyringSupported : Bool) (format : Json.Format) (config : Config)
    (labels : List (Operation × Answers)) : (∀ before event later credentials,
      storeHistory keyringSupported format config labels = before ++ event :: later →
      event.returned = some credentials → event.authorized format = true ∧ credentials = none ∨
        event.saw format ≠ some .undecodable ∧ cell format (before ++ [event]) = some credentials) ∧
    (∀ before event later passwordSupplied credentials,
      storeHistory keyringSupported format config labels = before ++ event :: later →
      event.operation = .loadPersisted passwordSupplied → event.returned = some (some credentials) →
      ∃ earlier source since, before ++ [event] = earlier ++ source :: since ∧
        source.persists format credentials ∧ ∀ other ∈ since, other.backendFailed format = false) ∧
    ∀ before deleted middle event later credentials, storeHistory keyringSupported format config labels =
        before ++ deleted :: (middle ++ event :: later) →
      deleted.operation = .delete → deleted.before.state.cache = .loaded (some credentials) →
      event.returned = some (some credentials) → ∃ saved ∈ middle, saved.saved = some credentials := by
  refine ⟨fun before event later credentials split returned => ?_,
    fun before event later passwordSupplied credentials split isLoad returned => ?_,
    fun before deleted middle event later credentials split isDelete loaded returned => ?_⟩
  · obtain ⟨first, label, second, -, rfl, rfl, -⟩ := history_eq_append_cons split
    refine (returned_step returned).imp_right fun ⟨decodable, cached⟩ => ⟨decodable, ?_⟩
    rw [← history_concat]
    refine cell_of_cached _ ?_ (by rw [storeAfter, SessionStore.runAll, final_concat]; exact cached)
    rw [storeAfter, SessionStore.runAll, final_concat, SessionStore.run_context]
    exact valid_of_returned returned
  · obtain ⟨first, ⟨operation, answers⟩, second, -, rfl, rfl, -⟩ := history_eq_append_cons split
    rw [SessionStore.run_operation] at isLoad
    subst isLoad
    rw [← history_concat]
    refine exists_source_of_backed _ ?_
    rw [storeAfter, SessionStore.runAll, final_concat]
    exact backed_of_loadPersisted (settled_of_reachable first) returned
  · obtain ⟨first, ⟨operation, answers⟩, second, -, -, rfl, rest⟩ := history_eq_append_cons split
    obtain ⟨between, label, last, -, rfl, rfl, -⟩ := history_eq_append_cons rest.symm
    rw [SessionStore.run_operation] at isDelete
    subst isDelete
    rw [SessionStore.run_before] at loaded
    have valid : (storeAfter keyringSupported format config first).context.selection.validate
        keyringSupported = .ok () := by
      have later := valid_of_returned returned
      rw [final_context, SessionStore.run_context] at later
      exact later
    by_contra missing
    obtain ⟨held, cached, other⟩ := final_of_none (fun store => store.state.Forgot credentials)
      (fun event => event.saved = some credentials) (fun _ => forgotten_step)
      ⟨none, deleted_step valid (settled_of_reachable first) answers loaded, (Option.some_ne_none _).symm⟩
      (fun event mem saved => missing ⟨event, mem, saved⟩)
    exact other (eq_of_cached cached returned)

end Reachable

theorem store_refines_cell_saved :
    ∃ before event, storeHistory true noFormat meConfig unlockedLabels = before ++ [event] ∧
      cell noFormat (before ++ [event]) = some (some someCredentials) := by
  refine ⟨[_, _, _], _, rfl, ?_⟩
  have refined := (store_refines_cell true noFormat meConfig unlockedLabels).1 [_, _, _] _ [] (some someCredentials)
    rfl (by decide)
  exact (refined.resolve_left fun both => nomatch both.2).2

end TutaBridge.Session
