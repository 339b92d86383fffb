import TutaBridge.Std.Base64
import TutaBridge.Std.History
import TutaBridge.Std.Json
import TutaBridge.Std.Text

/-!
# The session store

One account's saved session: a cache in memory over an entry of the keyring or of the
password store. What the keyring or `pass` answer is given with each call. An operation
tells its result, the state it leaves and the calls it made to the backend, in order.
-/

namespace TutaBridge.Session

open TutaBridge.Std

/-! ## Credentials as saved -/

inductive CredentialType where
  | internal
  | external
deriving DecidableEq, Repr

structure Credentials where
  login : String
  userId : String
  accessToken : String
  encryptedPassphraseKey : List UInt8
  credentialType : CredentialType
deriving DecidableEq, Repr

/-- `codec::encode`. -/
def encode (format : Json.Format) (credentials : Credentials) : String :=
  format.toString (.object [ ("login", .string credentials.login), ("user_id", .string credentials.userId),
    ("access_token", .string credentials.accessToken),
    ("encrypted_passphrase_key",
      .string (Base64.encodePadded Base64.standard credentials.encryptedPassphraseKey)),
    ("credential_type", .string (match credentials.credentialType with
      | .internal => "Internal"
      | .external => "External"))])

/-- `codec::decode`: an unknown credential type is `Internal`. -/
def decode (format : Json.Format) (bytes : List UInt8) : Option Credentials := do
  let value ← format.fromSlice bytes
  let login ← (value.index "login").asStr
  let userId ← (value.index "user_id").asStr
  let accessToken ← (value.index "access_token").asStr
  let key ← (value.index "encrypted_passphrase_key").asStr
  let encryptedPassphraseKey ← Base64.decodePadded Base64.standard key.toList
  let type ← (value.index "credential_type").asStr
  return {
    login, userId, accessToken, encryptedPassphraseKey
    credentialType := if type = "External" then .external else .internal }

/-! ## Errors -/

inductive KeyringUnavailableKind where
  | storageAccess
  | platform
deriving DecidableEq, Repr

/-- Why the session could not be kept or had. -/
inductive SessionStoreError where
  | passRequired
  | keyringUnavailable (kind : KeyringUnavailableKind) (message : String)
  | read (backend message : String)
  | write (backend message : String)
  | delete (backend message : String)
  | invalidSession (backend entry : String)
  | unreadableStore
  | volatileSession
  | persistenceRequired
deriving DecidableEq, Repr

namespace SessionStoreError

/-- `Display`. -/
def display : SessionStoreError → String
  | .passRequired =>
    "This platform has no supported keyring; configure a non-empty pass_path to use pass"
  | .keyringUnavailable _ message => s!"The keyring is unavailable: {message}"
  | .read backend message => s!"Could not read the saved session from {backend}: {message}"
  | .write backend message => s!"Could not save the session to {backend}: {message}"
  | .delete backend message => s!"Could not delete the saved session from {backend}: {message}"
  | .invalidSession backend entry =>
    s!"Saved entry in {backend} ({entry}) contains an invalid session. " ++
      "Sign in with your Tuta password to replace it after successful authentication; " ++
      "automatic resume leaves it unchanged"
  | .unreadableStore => "The saved session could not be read; refusing to change it"
  | .volatileSession =>
    "The session is only kept in memory; the unreadable saved entry was left unchanged"
  | .persistenceRequired =>
    "A persisted session is required; the current session is only available in memory"

def allowsVolatileLogin : SessionStoreError → Bool
  | .keyringUnavailable _ _ => true
  | _ => false

def allowsReauthentication : SessionStoreError → Bool
  | .invalidSession _ _ => true
  | _ => false

def warning (error : SessionStoreError) : String :=
  if error.allowsVolatileLogin then
    error.display ++ ". You can sign in for this run, but the saved entry will be left " ++
      "untouched and you may need to sign in again after restarting. " ++
      "To retry persistent storage after unlocking the keychain, quit and " ++
      "reopen the application; restarting only the bridge keeps this session in memory."
  else error.display

end SessionStoreError

/-! ## Backends -/

/-- Where the session is kept. -/
inductive Backend where
  | keyring (email : String)
  | unavailable
  | pass (entry : String)
deriving DecidableEq, Repr

/-- Why the keyring, or `pass`, could not read an entry. -/
inductive Fault where
  | noStorageAccess (message : String)
  | platformFailure (message : String)
  | other (message : String)

def Fault.message : Fault → String
  | .noStorageAccess message => message
  | .platformFailure message => message
  | .other message => message

/-- What reading the keyring or the password store comes to. Bytes that are not UTF-8 are
found as well. -/
inductive Reply where
  | found (bytes : List UInt8)
  | absent
  | failed (fault : Fault)

/-- What the outside answers to the calls one operation makes. -/
structure Answers where
  read : Reply
  write : Except String Unit
  delete : Except String Unit

/-- A call to the backend. -/
inductive Call where
  | read
  | write (preserving : Bool) (secret : String)
  | delete
deriving DecidableEq, Repr

namespace Backend

/-- `Backend::keyring` on a platform with or without a keyring. -/
def ofKeyring (keyringSupported : Bool) (email : String) : Backend :=
  if keyringSupported then .keyring email else .unavailable

def entry : Backend → String
  | .keyring email => s!"service tutabridge, account {email}"
  | .unavailable => "no supported keyring on this platform"
  | .pass entry => entry

def name : Backend → String
  | .keyring _ => "the keychain"
  | .unavailable => "the unavailable keychain"
  | .pass _ => "pass"

def isPass : Backend → Bool
  | .pass _ => true
  | _ => false

/-- `Backend::read`, with `classify_read_result` for the keyring. -/
def read : Backend → Reply → Except SessionStoreError (Option (List UInt8))
  | .unavailable, _ => .error .passRequired
  | _, .found bytes => .ok (some bytes)
  | _, .absent => .ok none
  | .keyring _, .failed (.noStorageAccess message) =>
    .error (.keyringUnavailable .storageAccess message)
  | .keyring _, .failed (.platformFailure message) => .error (.keyringUnavailable .platform message)
  | .keyring _, .failed (.other message) => .error (.read "the keychain" message)
  | .pass _, .failed fault => .error (.read "pass" fault.message)

/-- `Backend::write` and `PassStore::write_preserving`. -/
def write : Backend → Except String Unit → Except String Unit
  | .unavailable, _ => .error SessionStoreError.passRequired.display
  | _, answer => answer

/-- `Backend::delete`. -/
def delete : Backend → Except String Unit → Except String Unit
  | .unavailable, _ => .error SessionStoreError.passRequired.display
  | _, answer => answer

/-- No backend claims that what it could not read was an invalid session. -/
theorem read_not_reauthentication {backend : Backend} {reply : Reply} {error : SessionStoreError}
    (failed : backend.read reply = .error error) : error.allowsReauthentication = false := by
  cases backend with
  | unavailable => cases failed; rfl
  | keyring email =>
    cases reply with
    | found bytes => cases failed
    | absent => cases failed
    | failed fault => cases fault <;> cases failed <;> rfl
  | pass entry =>
    cases reply with
    | found bytes => cases failed
    | absent => cases failed
    | failed fault => cases failed; rfl

end Backend

/-! ## States -/

inductive Cache where
  | unloaded
  | loaded (credentials : Option Credentials)
deriving DecidableEq, Repr

inductive Persistence where
  | writable
  | unreadable
  | replaceInvalid
  | volatile
deriving DecidableEq, Repr

/-- The backend, with what the process remembers of it. -/
structure State where
  backend : Backend
  cache : Cache
  persistence : Persistence
  warning : Option String
deriving DecidableEq, Repr

structure SessionStatus where
  available : Bool
  warning : Option String
deriving DecidableEq, Repr

/-- What an operation comes to. -/
structure Outcome (α : Type) where
  result : Except SessionStoreError α
  state : State
  calls : List Call

def Outcome.map {α β : Type} (convert : α → β) (outcome : Outcome α) : Outcome β :=
  { outcome with result := outcome.result.map convert }

namespace State

variable (format : Json.Format) (answers : Answers)

/-- The credentials, from the cache or the backend. -/
def load (state : State) : Outcome (Option Credentials) :=
  match state.cache with
  | .loaded credentials => ⟨.ok credentials, state, []⟩
  | .unloaded =>
    match state.backend.read answers.read with
    | .error error =>
      let unreadable := { state with persistence := .unreadable, warning := some error.warning }
      ⟨.error error, unreadable, [.read]⟩
    | .ok raw =>
      let credentials := raw.bind (decode format)
      if raw.isSome && credentials.isNone then
        let error := SessionStoreError.invalidSession state.backend.name state.backend.entry
        let unreadable := { state with persistence := .unreadable, warning := some error.warning }
        ⟨.error error, unreadable, [.read]⟩
      else
        ⟨.ok credentials,
          { state with persistence := .writable, warning := none, cache := .loaded credentials }, [.read]⟩

def inspect (state : State) : Outcome SessionStatus :=
  let loaded := state.load format answers
  match loaded.result with
  | .ok credentials =>
    { loaded with result := .ok { available := credentials.isSome, warning := loaded.state.warning } }
  | .error error =>
    if error.allowsVolatileLogin || error.allowsReauthentication then
      { loaded with result := .ok { available := false, warning := some error.warning } }
    else { loaded with result := .error error }

def loadForPassword (allowVolatile : Bool) (state : State) : Outcome (Option Credentials) :=
  let loaded := state.load format answers
  match loaded.result with
  | .ok credentials => { loaded with result := .ok credentials }
  | .error error =>
    if error.allowsReauthentication then
      let replaceable :=
        { loaded.state with persistence := .replaceInvalid, warning := some error.warning }
      { loaded with result := .ok none, state := replaceable }
    else if allowVolatile && error.allowsVolatileLogin then
      let inMemory :=
        { loaded.state with persistence := .volatile, cache := .loaded none, warning := some error.warning }
      { loaded with result := .ok none, state := inMemory }
    else { loaded with result := .error error }

/-- The body of `SessionStore::load_persisted`. -/
def loadPersisted (passwordSupplied : Bool) (state : State) : Outcome (Option Credentials) :=
  let loaded :=
    if passwordSupplied then state.loadForPassword format answers false else state.load format answers
  match loaded.result with
  | .ok credentials =>
    if loaded.state.persistence = .volatile ∨ credentials.isSome ∧ loaded.state.warning.isSome then
      { loaded with result := .error .persistenceRequired }
    else loaded
  | .error _ => loaded

/-- Save, and keep in memory what was saved. -/
def saveWithPolicy (credentials : Credentials) (preserve : Bool) (state : State) : Outcome Unit :=
  if state.persistence = .unreadable then ⟨.error .unreadableStore, state, []⟩
  else
    let encoded := encode format credentials
    let cached := { state with cache := .loaded (some credentials) }
    if state.persistence = .volatile then ⟨.error .volatileSession, cached, []⟩
    else
      match state.backend.write answers.write with
      | .ok () =>
        ⟨.ok (), { cached with persistence := .writable, warning := none },
          [.write (preserve && state.backend.isPass) encoded]⟩
      | .error message =>
        let error := SessionStoreError.write state.backend.name message
        let warning := error.display ++
          ". The new session is only available for this run; you may need to sign in again after restarting."
        ⟨.error error, { cached with persistence := .writable, warning := some warning },
          [.write (preserve && state.backend.isPass) encoded]⟩

def save (credentials : Credentials) (state : State) : Outcome Unit :=
  state.saveWithPolicy format answers credentials false

def delete (state : State) : Outcome Unit :=
  if state.persistence = .unreadable ∨ state.persistence = .replaceInvalid then
    ⟨.error .unreadableStore, state, []⟩
  else
    let forgotten := { state with cache := .loaded none }
    if state.persistence = .volatile then ⟨.error .volatileSession, forgotten, []⟩
    else
      match state.backend.delete answers.delete with
      | .ok () => ⟨.ok (), { forgotten with warning := none }, [.delete]⟩
      | .error message =>
        let error := SessionStoreError.delete state.backend.name message
        ⟨.error error, { forgotten with warning := some error.display }, [.delete]⟩

end State

/-! ## The store and its operations -/

inductive Selection where
  | keyring
  | pass (entry : String)
deriving DecidableEq, Repr

/-- The settings a store is made from. -/
structure Config where
  email : String
  apiUrl : String
  passPath : Option String

def Selection.fromConfig (config : Config) : Selection :=
  match config.passPath.map fun pathPrefix => Text.trimMatches '/' pathPrefix.toList with
  | some pathPrefix =>
    if pathPrefix = [] then .keyring
    else .pass (String.ofList pathPrefix ++ "/" ++ config.email)
  | none => .keyring

def Selection.validate (keyringSupported : Bool) (selection : Selection) : Except SessionStoreError Unit :=
  if selection = .keyring ∧ keyringSupported = false then .error .passRequired else .ok ()

structure Context where
  email : String
  apiUrl : String
  selection : Selection
deriving DecidableEq, Repr

def Context.fromConfig (config : Config) : Context where
  email := config.email
  apiUrl := config.apiUrl
  selection := .fromConfig config

structure SessionStore where
  context : Context
  state : State
deriving DecidableEq, Repr

inductive Operation where
  | load
  | loadPersisted (passwordSupplied : Bool)
  | loadInteractive
  | inspect
  | save (credentials : Credentials)
  | savePreserving (credentials : Credentials)
  | delete
deriving DecidableEq, Repr

/-- What an operation returns when it succeeds. -/
inductive Answer where
  | credentials (credentials : Option Credentials)
  | status (status : SessionStatus)
  | done
deriving DecidableEq, Repr

/-- The work of an operation under the lock. -/
def State.perform (format : Json.Format) (answers : Answers) (state : State) : Operation → Outcome Answer
  | .load => (state.load format answers).map .credentials
  | .loadPersisted passwordSupplied =>
    (state.loadPersisted format answers passwordSupplied).map .credentials
  | .loadInteractive => (state.loadForPassword format answers true).map .credentials
  | .inspect => (state.inspect format answers).map .status
  | .save credentials => (state.save format answers credentials).map fun _ => .done
  | .savePreserving credentials =>
    (state.saveWithPolicy format answers credentials true).map fun _ => .done
  | .delete => (state.delete answers).map fun _ => .done

/-- An operation on a store, with what it found, called, left and returned. -/
structure Event where
  operation : Operation
  answers : Answers
  before : SessionStore
  result : Except SessionStoreError Answer
  calls : List Call
  after : SessionStore

namespace SessionStore

/-- `SessionStore::new`. -/
def new (keyringSupported : Bool) (config : Config) : SessionStore where
  context := .fromConfig config
  state := {
    backend := match Selection.fromConfig config with
      | .keyring => .ofKeyring keyringSupported config.email
      | .pass entry => .pass entry
    cache := .unloaded
    persistence := .writable
    warning := none }

/-- `SessionStore::matches_config`. -/
def matchesConfig (store : SessionStore) (config : Config) : Bool :=
  store.context = .fromConfig config

/-- `SessionStore::run`: a selection that does not fit the platform is refused before
anything else. -/
def run (keyringSupported : Bool) (format : Json.Format) (store : SessionStore)
    (label : Operation × Answers) : Event :=
  match store.context.selection.validate keyringSupported with
  | .error error => ⟨label.1, label.2, store, .error error, [], store⟩
  | .ok () =>
    let outcome := store.state.perform format label.2 label.1
    ⟨label.1, label.2, store, outcome.result, outcome.calls, { store with state := outcome.state }⟩

end SessionStore

end TutaBridge.Session
