import TutaBridge.Session.Cell
import TutaBridge.Std.Transducer

/-!
# Logging in

`login_with_persistence` resumes the saved session or logs in with the password. What
Tuta, the user and the backend of the store answer is given; the login is a trace of what
it asked them, in order, with its result and the store it leaves.
-/

namespace TutaBridge.Session

open TutaBridge.Std

variable {credentials : Credentials}

/-! ## What the SDK answers -/

/-- `HttpError`, as far as a resume looks at it. -/
inductive HttpError where
  | notAuthenticated
  | sessionExpired
  | accessExpired
  | accessDeactivated
  | accessBlocked
  | invalidSoftwareVersion
  | other (text : String)
deriving DecidableEq, Repr

/-- `ApiCallError`, as far as a resume looks at it. -/
inductive ApiCallError where
  | serverResponse (source : HttpError)
  | other (text : String)
deriving DecidableEq, Repr

/-- `LoginError`. -/
inductive LoginError where
  | invalidAccessToken (text : String)
  | invalidPassphrase (text : String)
  | invalidKey (text : String)
  | apiCall (source : ApiCallError)
deriving DecidableEq, Repr

/-- What `initiate_session` answers: credentials, and the types of the challenges left. -/
structure InitiatedSession where
  credentials : Credentials
  challenges : List Int
deriving DecidableEq, Repr

/-- The outside of one login. -/
structure Outside where
  display : LoginError → String
  totpType : Int
  client : Except String Unit
  resume : Except LoginError Unit
  initiate : Except String InitiatedSession
  totp : Option (Except String Nat)
  secondFactor : Except String Unit
  pending : Nat → Except String Bool
  login : Except LoginError Unit
  load : Answers
  delete : Answers
  save : Answers

/-! ## Verdicts -/

inductive PersistencePolicy where
  | allowVolatile
  | required
  | preserveExistingRequired
deriving DecidableEq, Repr

inductive ResumeError where
  | sessionInvalid
  | clientRejected
  | transient
deriving DecidableEq, Repr

inductive ResumeFailure where
  | sessionInvalid
  | clientRejected
  | transient
deriving DecidableEq, Repr

/-- `classify_resume_failure`. -/
def classifyResumeFailure : LoginError → ResumeFailure
  | .invalidAccessToken _ => .sessionInvalid
  | .invalidPassphrase _ => .sessionInvalid
  | .invalidKey _ => .sessionInvalid
  | .apiCall (.serverResponse source) =>
    match source with
    | .notAuthenticated => .sessionInvalid
    | .sessionExpired => .sessionInvalid
    | .accessExpired => .sessionInvalid
    | .accessDeactivated => .sessionInvalid
    | .accessBlocked => .sessionInvalid
    | .invalidSoftwareVersion => .clientRejected
    | .other _ => .transient
  | .apiCall (.other _) => .transient

/-- `accept_session_save`. -/
def acceptSessionSave {α : Type} (policy : PersistencePolicy) (result : Except SessionStoreError α) :
    Except SessionStoreError Unit :=
  match policy with
  | .required => result.map fun _ => ()
  | .preserveExistingRequired => result.map fun _ => ()
  | .allowVolatile => .ok ()

/-! ## The login -/

/-- Why a login ends without a session. -/
inductive LoginFailure where
  | text (message : String)
  | store (error : SessionStoreError)
  | resume (error : ResumeError)
deriving DecidableEq, Repr

structure TutaSession where
  email : String
  accessToken : String
deriving DecidableEq, Repr

/-- What a login asks of the store, the SDK and the user, with the answer. -/
inductive Asked where
  | store (event : Event)
  | resumed (credentials : Credentials) (answer : Except LoginError Unit)
  | initiated (answer : Except String InitiatedSession)
  | prompted (answer : Except String Nat)
  | secondFactor (accessToken : String) (code : Nat) (answer : Except String Unit)
  | polled (accessToken : String) (answer : Except String Bool)
  | loggedIn (credentials : Credentials) (answer : Except LoginError Unit)

/-- The result of a part of a login and what it asked. -/
structure Part (α : Type) where
  result : Except LoginFailure α
  asked : List Asked

/-- The result of a login, what it asked, and the store it leaves. -/
structure Attempt where
  result : Except LoginFailure TutaSession
  asked : List Asked
  store : SessionStore

/-- The poll of a second factor, with the rounds left and the number of the next. -/
def pollSecondFactor (outside : Outside) (accessToken : String) : Nat → Nat → Part Unit
  | 0, _ => ⟨.error (.text "2FA verification timed out after 30 seconds"), []⟩
  | rounds + 1, round =>
    match outside.pending round with
    | .error error => ⟨.error (.text s!"2FA poll failed: {error}"), [.polled accessToken (.error error)]⟩
    | .ok true =>
      let later := pollSecondFactor outside accessToken rounds (round + 1)
      ⟨later.result, .polled accessToken (.ok true) :: later.asked⟩
    | .ok false => ⟨.ok (), [.polled accessToken (.ok false)]⟩

/-- The challenges of a session, if it has any. -/
def answerChallenges (outside : Outside) (session : InitiatedSession) : Part Unit :=
  if session.challenges = [] then ⟨.ok (), []⟩
  else if session.challenges.any (· = outside.totpType) then
    match outside.totp with
    | none => ⟨.error (.text "2FA required but no TOTP callback provided"), []⟩
    | some (.error error) => ⟨.error (.text error), [.prompted (.error error)]⟩
    | some (.ok code) =>
      let token := session.credentials.accessToken
      match outside.secondFactor with
      | .error error =>
        ⟨.error (.text s!"2FA failed: {error}"),
          [.prompted (.ok code), .secondFactor token code (.error error)]⟩
      | .ok () =>
        let polled := pollSecondFactor outside token 30 0
        ⟨polled.result, .prompted (.ok code) :: .secondFactor token code (.ok ()) :: polled.asked⟩
  else
    ⟨.error (.text "Account requires U2F/WebAuthn 2FA which is not supported — only TOTP is supported"), []⟩

/-- The login with the password, up to the credentials to save. -/
def passwordLogin (outside : Outside) : Part Credentials :=
  match outside.initiate with
  | .error error => ⟨.error (.text s!"Login failed: {error}"), [.initiated (.error error)]⟩
  | .ok session =>
    let challenged := answerChallenges outside session
    match challenged.result with
    | .error failure => ⟨.error failure, .initiated (.ok session) :: challenged.asked⟩
    | .ok () =>
      match outside.login with
      | .error error =>
        ⟨.error (.text ("Login failed: " ++ outside.display error)),
          .initiated (.ok session) :: challenged.asked ++ [.loggedIn session.credentials (.error error)]⟩
      | .ok () =>
        ⟨.ok session.credentials,
          .initiated (.ok session) :: challenged.asked ++ [.loggedIn session.credentials (.ok ())]⟩

section Login

variable (keyringSupported : Bool) (format : Json.Format) (config : Config)

/-- The rest of a login without a saved session to resume, after what was asked so far. -/
def authenticate (outside : Outside) (password : Option String) (policy : PersistencePolicy)
    (asked : List Asked) (store : SessionStore) : Attempt :=
  match password with
  | none => ⟨.error (.text "No saved session and no password provided"), asked, store⟩
  | some _ =>
    let part := passwordLogin outside
    match part.result with
    | .error failure => ⟨.error failure, asked ++ part.asked, store⟩
    | .ok credentials =>
      let operation :=
        if policy = .preserveExistingRequired then Operation.savePreserving credentials
        else .save credentials
      let saved := store.run keyringSupported format (operation, outside.save)
      match acceptSessionSave policy saved.result with
      | .error error => ⟨.error (.store error), asked ++ part.asked ++ [.store saved], saved.after⟩
      | .ok () =>
        ⟨.ok { email := config.email, accessToken := credentials.accessToken },
          asked ++ part.asked ++ [.store saved], saved.after⟩

/-- How the saved session is loaded. -/
def loadOperation (password : Option String) (policy : PersistencePolicy) : Operation :=
  if policy ≠ .allowVolatile then .loadPersisted password.isSome
  else if password.isSome then .loadInteractive
  else .load

/-- The resume of the session the store answered with. -/
def resume (outside : Outside) (password : Option String) (policy : PersistencePolicy) (loaded : Event)
    (credentials : Credentials) : Attempt :=
  let resumed := [.store loaded, .resumed credentials outside.resume]
  match outside.resume with
  | .ok () => ⟨.ok { email := config.email, accessToken := credentials.accessToken }, resumed, loaded.after⟩
  | .error error =>
    match classifyResumeFailure error with
    | .sessionInvalid =>
      if policy = .preserveExistingRequired then
        if password.isNone then ⟨.error (.resume .sessionInvalid), resumed, loaded.after⟩
        else authenticate keyringSupported format config outside password policy resumed loaded.after
      else
        let deleted := loaded.after.run keyringSupported format (.delete, outside.delete)
        authenticate keyringSupported format config outside password policy
          (resumed ++ [.store deleted]) deleted.after
    | .clientRejected =>
      if policy = .preserveExistingRequired then
        ⟨.error (.resume .clientRejected), resumed, loaded.after⟩
      else
        ⟨.error (.text ("Tuta rejects this version of the bridge (" ++ outside.display error ++
          "); update the bridge. The saved session was kept.")), resumed, loaded.after⟩
    | .transient =>
      if policy = .preserveExistingRequired then
        ⟨.error (.resume .transient), resumed, loaded.after⟩
      else
        ⟨.error (.text ("Could not resume the saved session (" ++ outside.display error ++
          "); it was kept, try again later.")), resumed, loaded.after⟩

/-- `login_with_persistence`. -/
def loginWithPersistence (outside : Outside) (store : SessionStore) (password : Option String)
    (policy : PersistencePolicy) : Attempt :=
  if store.matchesConfig config then
    let loaded := store.run keyringSupported format (loadOperation password policy, outside.load)
    match loaded.result with
    | .error error => ⟨.error (.store error), [.store loaded], loaded.after⟩
    | .ok _ =>
      match outside.client with
      | .error error => ⟨.error (.text error), [.store loaded], loaded.after⟩
      | .ok () =>
        match loaded.returned with
        | some (some credentials) =>
          resume keyringSupported format config outside password policy loaded credentials
        | _ =>
          authenticate keyringSupported format config outside password policy [.store loaded] loaded.after
  else
    ⟨.error (.text "Session store does not match the configured account and backend"), [], store⟩

end Login

/-! ## What a login may change -/

namespace Asked

/-- The SDK gave the verdict that the session the store answered with is dead. -/
def Rejected (before : List Asked) : Prop :=
  ∃ loaded credentials error, .store loaded ∈ before ∧ loaded.returned = some (some credentials) ∧
    .resumed credentials (.error error) ∈ before ∧ classifyResumeFailure error = .sessionInvalid

/-- A password login for these credentials is complete: the session was initiated, its
challenges, if it has any, were answered and cleared, and the login succeeded. -/
def Complete (credentials : Credentials) (before : List Asked) : Prop :=
  ∃ session : InitiatedSession, session.credentials = credentials ∧ .initiated (.ok session) ∈ before ∧
    (session.challenges ≠ [] → (∃ code, .secondFactor credentials.accessToken code (.ok ()) ∈ before) ∧
        .polled credentials.accessToken (.ok false) ∈ before) ∧
    .loggedIn credentials (.ok ()) ∈ before

/-- What was asked before gives a reason for the changes of the stored entry in this step:
a verdict on the session for a delete, a complete login for a write. -/
def Justified (format : Json.Format) (policy : PersistencePolicy) (before : List Asked) (step : Asked) : Prop :=
  ∀ event, step = .store event →
    (.delete ∈ event.calls → policy ≠ .preserveExistingRequired ∧ Rejected before) ∧
    ∀ preserving secret, .write preserving secret ∈ event.calls →
      ∃ credentials, Complete credentials before ∧ secret = encode format credentials ∧
        preserving = (policy = .preserveExistingRequired && event.before.state.backend.isPass)

/-- Every step has a reason in what was asked before it. -/
def AllJustified (format : Json.Format) (policy : PersistencePolicy) (asked : List Asked) : Prop :=
  ∀ before step later, asked = before ++ step :: later → Justified format policy before step

/-- The step asked the SDK or the user, not the store. -/
def isOutside : Asked → Bool
  | .store _ => false
  | _ => true

variable {format : Json.Format} {policy : PersistencePolicy} {asked more : List Asked}

theorem Complete.mono (complete : Complete credentials asked)
    (kept : ∀ step ∈ asked, step ∈ more) : Complete credentials more := by
  obtain ⟨session, same, initiated, challenged, loggedIn⟩ := complete
  refine ⟨session, same, kept _ initiated, fun some => ?_, kept _ loggedIn⟩
  obtain ⟨⟨code, accepted⟩, cleared⟩ := challenged some
  exact ⟨⟨code, kept _ accepted⟩, kept _ cleared⟩

theorem justified_of_isOutside {step : Asked} (outside : step.isOutside = true) :
    Justified format policy asked step := by
  rintro event rfl
  cases outside

theorem allJustified_nil : AllJustified format policy [] := by
  intro before step later split
  exact absurd split.symm (List.append_ne_nil_of_right_ne_nil _ (List.cons_ne_nil _ _))

theorem AllJustified.concat (justified : AllJustified format policy asked) {step : Asked}
    (last : Justified format policy asked step) : AllJustified format policy (asked ++ [step]) := by
  intro before other later split
  rcases concat_eq_append_cons split with ⟨rfl, rfl, -⟩ | ⟨rest, -, earlier⟩
  · exact last
  · exact justified before other rest earlier

/-- What is asked of the SDK and the user changes no stored entry. -/
theorem AllJustified.append (justified : AllJustified format policy asked)
    (outside : ∀ step ∈ more, step.isOutside = true) : AllJustified format policy (asked ++ more) := by
  induction more generalizing asked with
  | nil => rwa [List.append_nil]
  | cons step rest ih =>
    obtain ⟨here, later⟩ := List.forall_mem_cons.mp outside
    rw [List.append_cons]
    exact ih (justified.concat (justified_of_isOutside here)) later

end Asked

/-! ### The store's part -/

section Calls

variable {keyringSupported : Bool} {format : Json.Format} {store : SessionStore} {answers : Answers}
  {operation : Operation}

theorem calls_of_looks (looks : operation.looks = true) :
    ∀ call ∈ (store.run keyringSupported format (operation, answers)).calls, call = .read := by
  intro call mem
  rcases store.run_cases operation answers with ⟨error, _, same⟩ | ⟨outcome, came, same⟩
  · rw [same] at mem
    cases mem
  · rw [same] at mem
    cases came with
    | cached _ _ => cases mem
    | found _ _ _ | failed _ _ _ _ | undecodable _ _ _ _ | authorized _ _ _ | fallback _ _ _ =>
      exact List.mem_singleton.mp mem
    | saveRefused saves _ | saveKept saves _ | saved saves _ _ _ | saveFailed saves _ _ _ =>
      exact absurd (saves.symm.trans (Operation.saves_of_looks looks)) (Option.some_ne_none _)
    | deleteRefused _ | deleteKept _ | deleted _ _ | deleteFailed _ _ => cases looks

theorem calls_of_delete : ∀ call ∈ (store.run keyringSupported format (.delete, answers)).calls, call = .delete := by
  intro call mem
  rcases store.run_cases .delete answers with ⟨error, _, same⟩ | ⟨outcome, came, same⟩
  · rw [same] at mem
    cases mem
  · rw [same] at mem
    cases came with
    | cached looks _ | found looks _ _ | failed looks _ _ _ | undecodable looks _ _ _ => cases looks
    | authorized authorizes _ _ => cases authorizes
    | saveRefused saves _ | saveKept saves _ | saved saves _ _ _ | saveFailed saves _ _ _ => cases saves
    | deleteRefused _ | deleteKept _ => cases mem
    | deleted _ _ | deleteFailed _ _ => exact List.mem_singleton.mp mem

theorem calls_of_saves {preserve : Bool} (saves : operation.saves = some (credentials, preserve)) :
    ∀ call ∈ (store.run keyringSupported format (operation, answers)).calls,
      call = .write (preserve && store.state.backend.isPass) (encode format credentials) := by
  intro call mem
  rcases store.run_cases operation answers with ⟨error, _, same⟩ | ⟨outcome, came, same⟩
  · rw [same] at mem
    cases mem
  · rw [same] at mem
    cases came with
    | cached looks _ | found looks _ _ | failed looks _ _ _ | undecodable looks _ _ _ =>
      exact absurd (saves.symm.trans (Operation.saves_of_looks looks)) (Option.some_ne_none _)
    | authorized authorizes _ _ =>
      have looks := Operation.looks_of_authorizes authorizes
      exact absurd (saves.symm.trans (Operation.saves_of_looks looks)) (Option.some_ne_none _)
    | fallback _ _ _ | deleteRefused _ | deleteKept _ | deleted _ _ | deleteFailed _ _ => cases saves
    | saveRefused _ _ | saveKept _ _ => cases mem
    | saved alsoSaves _ _ _ | saveFailed alsoSaves _ _ _ =>
      cases saves.symm.trans alsoSaves
      exact List.mem_singleton.mp mem

end Calls

/-! ### The password login -/

section Password

variable {outside : Outside}

theorem pollSecondFactor_outside (token : String) (rounds round : Nat) :
    ∀ step ∈ (pollSecondFactor outside token rounds round).asked, step.isOutside = true := by
  induction rounds generalizing round with
  | zero => exact fun step mem => absurd mem List.not_mem_nil
  | succ rounds ih =>
    unfold pollSecondFactor
    cases outside.pending round with
    | error error => exact List.forall_mem_singleton.mpr rfl
    | ok pending =>
      cases pending with
      | true => exact List.forall_mem_cons.mpr ⟨rfl, ih (round + 1)⟩
      | false => exact List.forall_mem_singleton.mpr rfl

/-- A poll ends well only by an answer that nothing is pending. -/
theorem cleared_of_poll {token : String} {rounds round : Nat}
    (done : (pollSecondFactor outside token rounds round).result = .ok ()) :
    .polled token (.ok false) ∈ (pollSecondFactor outside token rounds round).asked := by
  induction rounds generalizing round with
  | zero => cases done
  | succ rounds ih =>
    unfold pollSecondFactor at done ⊢
    cases answer : outside.pending round with
    | error error => rw [answer] at done; cases done
    | ok pending =>
      rw [answer] at done
      cases pending with
      | true => exact List.mem_cons_of_mem _ (ih done)
      | false => exact List.mem_singleton_self _

theorem answerChallenges_outside (outside : Outside) (session : InitiatedSession) :
    ∀ step ∈ (answerChallenges outside session).asked, step.isOutside = true := by
  unfold answerChallenges
  split
  · exact fun step mem => absurd mem List.not_mem_nil
  · split
    · cases outside.totp with
      | none => exact fun step mem => absurd mem List.not_mem_nil
      | some answer =>
        cases answer with
        | error error => exact List.forall_mem_singleton.mpr rfl
        | ok code =>
          dsimp only
          cases outside.secondFactor with
          | error error => exact List.forall_mem_cons.mpr ⟨rfl, List.forall_mem_singleton.mpr rfl⟩
          | ok _ =>
            exact List.forall_mem_cons.mpr ⟨rfl, List.forall_mem_cons.mpr
              ⟨rfl, pollSecondFactor_outside _ 30 0⟩⟩
    · exact fun step mem => absurd mem List.not_mem_nil

/-- Challenges are passed only by an accepted code and a poll that cleared. -/
theorem challenged_of_ok {session : InitiatedSession} (done : (answerChallenges outside session).result = .ok ())
    (some : session.challenges ≠ []) :
    (∃ code, .secondFactor session.credentials.accessToken code (.ok ()) ∈ (answerChallenges outside session).asked) ∧
      .polled session.credentials.accessToken (.ok false) ∈ (answerChallenges outside session).asked := by
  unfold answerChallenges at done ⊢
  rw [if_neg some] at done ⊢
  split at done
  · rw [if_pos ‹_›]
    cases asked : outside.totp with
    | none => rw [asked] at done; cases done
    | some answer =>
      cases answer with
      | error error => rw [asked] at done; cases done
      | ok code =>
        rw [asked] at done
        dsimp only at done ⊢
        cases accepted : outside.secondFactor with
        | error error => rw [accepted] at done; cases done
        | ok _ =>
          rw [accepted] at done
          exact ⟨⟨code, List.mem_cons_of_mem _ List.mem_cons_self⟩,
            List.mem_cons_of_mem _ (List.mem_cons_of_mem _ (cleared_of_poll done))⟩
  · cases done

theorem passwordLogin_outside (outside : Outside) :
    ∀ step ∈ (passwordLogin outside).asked, step.isOutside = true := by
  unfold passwordLogin
  cases outside.initiate with
  | error error => exact List.forall_mem_singleton.mpr rfl
  | ok session =>
    have challenged := answerChallenges_outside outside session
    dsimp only
    cases (answerChallenges outside session).result with
    | error failure => exact List.forall_mem_cons.mpr ⟨rfl, challenged⟩
    | ok _ =>
      dsimp only
      cases outside.login with
      | error error =>
        exact List.forall_mem_cons.mpr ⟨rfl, List.forall_mem_append.mpr
          ⟨challenged, List.forall_mem_singleton.mpr rfl⟩⟩
      | ok _ =>
        exact List.forall_mem_cons.mpr ⟨rfl, List.forall_mem_append.mpr
          ⟨challenged, List.forall_mem_singleton.mpr rfl⟩⟩

/-- A password login that gives credentials is complete. -/
theorem complete_of_passwordLogin (done : (passwordLogin outside).result = .ok credentials) :
    Asked.Complete credentials (passwordLogin outside).asked := by
  unfold passwordLogin at done ⊢
  cases initiated : outside.initiate with
  | error error => rw [initiated] at done; cases done
  | ok session =>
    rw [initiated] at done
    dsimp only at done ⊢
    cases challenged : (answerChallenges outside session).result with
    | error failure => rw [challenged] at done; cases done
    | ok _ =>
      rw [challenged] at done
      dsimp only at done ⊢
      cases loggedIn : outside.login with
      | error error => rw [loggedIn] at done; cases done
      | ok _ =>
        rw [loggedIn] at done
        cases done
        refine ⟨session, rfl, List.mem_cons_self, fun some => ?_,
          List.mem_cons_of_mem _ (List.mem_append_right _ (List.mem_singleton_self _))⟩
        obtain ⟨⟨code, accepted⟩, cleared⟩ := challenged_of_ok challenged some
        exact ⟨⟨code, List.mem_cons_of_mem _ (List.mem_append_left _ accepted)⟩,
          List.mem_cons_of_mem _ (List.mem_append_left _ cleared)⟩

end Password

/-! ### The whole login -/

section Whole

variable {keyringSupported : Bool} {format : Json.Format} {config : Config} {outside : Outside}
  {password : Option String} {policy : PersistencePolicy} {asked : List Asked} {store : SessionStore}

theorem looks_loadOperation : (loadOperation password policy).looks = true := by
  unfold loadOperation
  split
  · rfl
  · split
    · rfl
    · rfl

/-- Loading the saved session changes nothing. -/
theorem justified_load {answers : Answers} {operation : Operation} (looks : operation.looks = true) :
    Asked.Justified format policy asked (.store (store.run keyringSupported format (operation, answers))) := by
  rintro event ⟨⟩
  refine ⟨fun deletes => ?_, fun preserving secret writes => ?_⟩
  · exact absurd (calls_of_looks looks _ deletes) Call.noConfusion
  · exact absurd (calls_of_looks looks _ writes) Call.noConfusion

/-- The session is deleted on a verdict about it. -/
theorem justified_delete {answers : Answers} (notPreserving : policy ≠ .preserveExistingRequired)
    (rejected : Asked.Rejected asked) :
    Asked.Justified format policy asked (.store (store.run keyringSupported format (.delete, answers))) := by
  rintro event ⟨⟩
  refine ⟨fun _ => ⟨notPreserving, rejected⟩, fun preserving secret writes => ?_⟩
  exact absurd (calls_of_delete _ writes) Call.noConfusion

/-- A session is saved after a complete login. -/
theorem justified_save (keyringSupported : Bool) (store : SessionStore) (answers : Answers)
    (complete : Asked.Complete credentials asked) :
    Asked.Justified format policy asked (.store (store.run keyringSupported format
      (if policy = .preserveExistingRequired then .savePreserving credentials else .save credentials, answers))) := by
  have saves : (if policy = .preserveExistingRequired then Operation.savePreserving credentials
      else .save credentials).saves = some (credentials, decide (policy = .preserveExistingRequired)) := by
    by_cases preserves : policy = .preserveExistingRequired
    · rw [if_pos preserves, decide_eq_true preserves]
      rfl
    · rw [if_neg preserves, decide_eq_false preserves]
      rfl
  rintro event ⟨⟩
  refine ⟨fun deletes => ?_, fun preserving secret writes => ?_⟩
  · exact absurd (calls_of_saves saves _ deletes) Call.noConfusion
  · obtain ⟨rfl, rfl⟩ := Call.write.inj (calls_of_saves saves _ writes)
    exact ⟨credentials, complete, rfl, by rw [SessionStore.run_before]⟩

theorem allJustified_authenticate (justified : Asked.AllJustified format policy asked) :
    Asked.AllJustified format policy
      (authenticate keyringSupported format config outside password policy asked store).asked := by
  unfold authenticate
  cases password with
  | none => exact justified
  | some _ =>
    have login := justified.append (passwordLogin_outside outside)
    dsimp only
    cases done : (passwordLogin outside).result with
    | error failure => exact login
    | ok credentials =>
      have complete := (complete_of_passwordLogin done).mono fun step mem =>
        List.mem_append_right asked mem
      have saved := login.concat (justified_save keyringSupported store outside.save complete)
      dsimp only
      split
      · exact saved
      · exact saved

/-- A resume of what the store answered with. -/
theorem allJustified_resume {loaded : Event}
    (justified : Asked.AllJustified format policy [.store loaded])
    (held : loaded.returned = some (some credentials)) :
    Asked.AllJustified format policy
      (resume keyringSupported format config outside password policy loaded credentials).asked := by
  have resumed : Asked.AllJustified format policy [.store loaded, .resumed credentials outside.resume] :=
    justified.concat (Asked.justified_of_isOutside rfl)
  unfold resume
  dsimp only
  cases verdict : outside.resume with
  | ok _ => rw [verdict] at resumed; exact resumed
  | error error =>
    rw [verdict] at resumed
    dsimp only
    cases failure : classifyResumeFailure error with
    | clientRejected =>
      dsimp only
      split
      · exact resumed
      · exact resumed
    | transient =>
      dsimp only
      split
      · exact resumed
      · exact resumed
    | sessionInvalid =>
      dsimp only
      split
      · split
        · exact resumed
        · exact allJustified_authenticate resumed
      · rename_i notPreserving
        have rejected : Asked.Rejected [.store loaded, .resumed credentials (.error error)] :=
          ⟨loaded, credentials, error, List.mem_cons_self, held,
            List.mem_cons_of_mem _ (List.mem_singleton_self _), failure⟩
        exact allJustified_authenticate (resumed.concat (justified_delete notPreserving rejected))

theorem allJustified_login (keyringSupported : Bool) (format : Json.Format) (config : Config)
    (outside : Outside) (store : SessionStore) (password : Option String) (policy : PersistencePolicy) :
    Asked.AllJustified format policy
      (loginWithPersistence keyringSupported format config outside store password policy).asked := by
  have loadJustified : Asked.AllJustified format policy
      [.store (store.run keyringSupported format (loadOperation password policy, outside.load))] :=
    Asked.allJustified_nil.concat (justified_load looks_loadOperation)
  unfold loginWithPersistence
  split
  · dsimp only
    cases loaded : (store.run keyringSupported format (loadOperation password policy, outside.load)).result with
    | error error => exact loadJustified
    | ok answer =>
      dsimp only
      cases outside.client with
      | error error => exact loadJustified
      | ok _ =>
        cases held : (store.run keyringSupported format
            (loadOperation password policy, outside.load)).returned with
        | none => exact allJustified_authenticate loadJustified
        | some found =>
          cases found with
          | none => exact allJustified_authenticate loadJustified
          | some credentials => exact allJustified_resume loadJustified held
  · exact Asked.allJustified_nil

end Whole

/-- A login deletes the stored entry only after Tuta rejected the session the store answered
with, and not under `PreserveExistingRequired`; it writes the entry only after a complete
password login, and then the credentials of this login; without either it only reads. -/
theorem session_is_given_up_on_verdict (keyringSupported : Bool) (format : Json.Format) (config : Config)
    (outside : Outside) (store : SessionStore) (password : Option String) (policy : PersistencePolicy) :
    (∀ before event later, (loginWithPersistence keyringSupported format config outside store password policy).asked =
        before ++ .store event :: later →
      .delete ∈ event.calls → policy ≠ .preserveExistingRequired ∧ Asked.Rejected before) ∧
    (∀ before event later preserving secret,
      (loginWithPersistence keyringSupported format config outside store password policy).asked =
        before ++ .store event :: later →
      .write preserving secret ∈ event.calls →
      ∃ credentials, Asked.Complete credentials before ∧ secret = encode format credentials ∧
        preserving = (policy = .preserveExistingRequired && event.before.state.backend.isPass)) ∧
    ∀ before event later, (loginWithPersistence keyringSupported format config outside store password policy).asked =
        before ++ .store event :: later →
      ¬ Asked.Rejected before → (∀ credentials, ¬ Asked.Complete credentials before) →
      ∀ call ∈ event.calls, call = .read := by
  have justified := allJustified_login keyringSupported format config outside store password policy
  refine ⟨fun before event later split deletes => (justified _ _ _ split event rfl).1 deletes,
    fun before event later preserving secret split writes =>
      (justified _ _ _ split event rfl).2 preserving secret writes,
    fun before event later split notRejected incomplete call mem => ?_⟩
  cases call with
  | read => rfl
  | delete => exact absurd ((justified _ _ _ split event rfl).1 mem).2 notRejected
  | write preserving secret =>
    obtain ⟨credentials, complete, _⟩ := (justified _ _ _ split event rfl).2 preserving secret mem
    exact absurd complete (incomplete credentials)

/-! ## Logins one after the other -/

/-- The account of the samples. -/
def sampleConfig : Config := ⟨"me@tuta.com", "https://app.tuta.com", none⟩

def sampleCredentials (accessToken : String) : Credentials :=
  ⟨"me@tuta.com", "user", accessToken, [], .internal⟩

/-- A format with one document, the saved session `saved`. -/
def sampleFormat : Json.Format where
  fromSlice bytes :=
    if bytes = [1] then
      some (.object [("login", .string "me@tuta.com"), ("user_id", .string "user"),
        ("access_token", .string "saved"), ("encrypted_passphrase_key", .string ""),
        ("credential_type", .string "Internal")])
    else none
  toString _ := "session"
  toStringPretty _ := none

/-- Surroundings in which no session can be resumed, and a login with the password gets the
session `fresh`. -/
def sampleOutside (read : Reply) (write : Except String Unit) : Outside where
  display _ := "expired"
  totpType := 1
  client := .ok ()
  resume := .error (.apiCall (.serverResponse .sessionExpired))
  initiate := .ok ⟨sampleCredentials "fresh", []⟩
  totp := none
  secondFactor := .ok ()
  pending _ := .ok false
  login := .ok ()
  load := ⟨read, write, .ok ()⟩
  delete := ⟨read, write, .ok ()⟩
  save := ⟨read, write, .ok ()⟩

/-- A login by a user who is there, with an expired session in the keyring. -/
def expiredLogin : Attempt :=
  loginWithPersistence true sampleFormat sampleConfig (sampleOutside (.found [1]) (.ok ()))
    (.new true sampleConfig) (some "password") .allowVolatile

/-- The expired session is deleted, and the new one is saved. -/
theorem session_is_given_up_on_verdict_expired : Asked.Rejected (expiredLogin.asked.take 2) ∧
      ∃ credentials, Asked.Complete credentials (expiredLogin.asked.take 5) := by
  have verdict := session_is_given_up_on_verdict true sampleFormat sampleConfig
    (sampleOutside (.found [1]) (.ok ())) (.new true sampleConfig) (some "password") .allowVolatile
  obtain ⟨deletes, writes, -⟩ := verdict
  obtain ⟨-, rejected⟩ := deletes (expiredLogin.asked.take 2) _ _ rfl (List.mem_singleton_self _)
  obtain ⟨credentials, complete, -⟩ := writes (expiredLogin.asked.take 5) _ _ _ _ rfl (List.mem_singleton_self _)
  exact ⟨rejected, credentials, complete⟩

/-- A login with its surroundings. -/
structure Login where
  outside : Outside
  password : Option String
  policy : PersistencePolicy

section Logins

variable (keyringSupported : Bool) (format : Json.Format) (config : Config)

def Login.on (login : Login) (store : SessionStore) : Attempt :=
  loginWithPersistence keyringSupported format config login.outside store login.password login.policy

/-- The store behind logins one after the other. -/
def afterLogins (logins : List Login) : SessionStore :=
  logins.foldl (fun store login => (login.on keyringSupported format config store).store)
    (.new keyringSupported config)

/-- Each entry of the backend is deleted only behind a verdict on the session that it holds,
as a read of it would find. -/
def EntryGivenUpOnVerdict : Prop :=
  ∀ (earlier : List Login) (login : Login) (before : List Asked) (event : Event) (later : List Asked),
    (login.on keyringSupported format config (afterLogins keyringSupported format config earlier)).asked =
      before ++ .store event :: later → .delete ∈ event.calls →
        ∃ bytes credentials error, login.outside.delete.read = .found bytes ∧
          decode format bytes = some credentials ∧ .resumed credentials (.error error) ∈ before ∧
          classifyResumeFailure error = .sessionInvalid

end Logins

/-- A session that could not be saved is held in memory alone. The verdict on it deletes the
entry that another program has saved since. -/
theorem cached_session_gives_up_entry : ¬ EntryGivenUpOnVerdict true sampleFormat sampleConfig := by
  intro claim
  let unsaved : Login := ⟨sampleOutside .absent (.error "locked"), some "password", .allowVolatile⟩
  let next : Login := ⟨sampleOutside (.found [1]) (.ok ()), some "password", .allowVolatile⟩
  let asked := (next.on true sampleFormat sampleConfig
    (afterLogins true sampleFormat sampleConfig [unsaved])).asked
  obtain ⟨bytes, credentials, error, found, decoded, resumed, -⟩ :=
    claim [unsaved] next (asked.take 2) _ _ rfl (List.mem_singleton_self _)
  obtain rfl : [1] = bytes := Reply.found.inj found
  have isSaved : some (sampleCredentials "saved") = some credentials := decoded
  rcases List.mem_cons.mp resumed with isStore | isResumed
  · cases isStore
  · cases List.mem_singleton.mp isResumed
    exact absurd isSaved (by decide)

end TutaBridge.Session
