import TutaBridge.Store.LocalStore
import TutaBridge.Store.MailStore

/-!
# The bridge and what it runs against

`World` is the state every task of the bridge shares. `Env` is everything the
bridge does not decide: the answers of the server, whether a disk call fails,
the iteration order of a hash map, the clock, the JSON of a mail and the text of
a rendered message. Each call to the server or the disk advances `tick`, and the
answer may depend on it, so an `Env` covers every pattern of failures.
-/

namespace TutaBridge.Bridge

open TutaBridge.Std Tuta Store

/-- The calls of `MailBackend` that read, by the tick they are made at. -/
structure MailBackend where
  loadMailIdsForFolder : Nat → FolderInfo → Except String (List Mail)
  loadMail : Nat → String → String → Except String (Option Mail)
  decryptInlineMail : Nat → String → Except String (Option Mail)
  decryptInlineMailSetEntry : Nat → String → Except String (Option MailSetEntry)
  decryptInlineMailDetailsBlob : Nat → String → Except String (Option MailDetails)
  loadMailDetails : Nat → Mail → Except String (Option MailDetails)
  loadAttachments : Nat → Mail → Except AttachmentError (List (TutanotaFile × List UInt8))
  listFolders : Nat → Except String (List FolderInfo)

/-- `serde_json` on a `Mail`. -/
structure MailCodec where
  toJson : Mail → String
  fromJson : String → Option Mail

/-- A mail's JSON parses, to a mail with the same element id. -/
def MailCodec.KeepsElementIds (codec : MailCodec) : Prop :=
  ∀ mail, ∃ parsed, codec.fromJson (codec.toJson mail) = some parsed ∧ parsed.elementId = mail.elementId

/-- The rendering of a message and the text the index gets from it. -/
structure Rendering where
  mailToRfc2822 : Mail → Option MailDetails → List (TutanotaFile × List UInt8) → String
  stripHtml : String → String
  extractBodyText : String → String

structure Env where
  backend : MailBackend
  codec : MailCodec
  rendering : Rendering
  diskFault : Nat → Option StoreError
  hashOrder : Nat → List String → List String
  hashOrder_perm : ∀ tick keys, (hashOrder tick keys).Perm keys
  now : Nat → Nat

/-- The state the tasks share. `lastBatchIds` is the in-memory catch-up state of
the event bus. -/
structure World where
  store : MailStore
  localStore : LocalStore
  lastBatchIds : Dict String String
  tick : Nat
deriving DecidableEq

namespace World

/-- A call to the server at the current tick. -/
def ask {α : Type} (answer : Nat → α) (world : World) : α × World :=
  (answer world.tick, { world with tick := world.tick + 1 })

/-- A call to the disk, which leaves the store as it was when it fails. -/
def call {α : Type} (env : Env) (effect : LocalStore → α × LocalStore) (world : World) :
    Except StoreError α × World :=
  match env.diskFault world.tick with
  | some error => (.error error, { world with tick := world.tick + 1 })
  | none =>
    let done := effect world.localStore
    (.ok done.1, { world with localStore := done.2, tick := world.tick + 1 })

/-- A call to the disk whose result nobody reads but to log it. -/
def write (env : Env) (effect : LocalStore → LocalStore) (world : World) : World :=
  (world.call env fun store => ((), effect store)).2

/-- Disk calls joined by `?`: the first that fails ends the chain. -/
def writeAll (env : Env) : List (LocalStore → LocalStore) → World → World
  | [], world => world
  | effect :: rest, world =>
    let done := world.call env fun store => ((), effect store)
    match done.1 with
    | .error _ => done.2
    | .ok _ => writeAll env rest done.2

/-- `LocalStore::delete_mail`: the row, then the body file, then the index row. -/
def deleteMail (env : Env) (elementId : String) (world : World) : World :=
  world.writeAll env [(·.deleteMailRow elementId), (·.deleteEml elementId), (·.unindexBody elementId)]

/-- Change the in-memory store. -/
def mapStore (change : MailStore → MailStore) (world : World) : World :=
  { world with store := change world.store }

end World

/-- `MAX_RETRIES`. -/
def maxRetries : Nat := 3

/-- `retry`: an attempt is repeated until it succeeds, `maxRetries` times at
most. The waits in between are not part of the state. -/
def retry {α : Type} (answer : Nat → Except String α) : (retries : Nat) → World → Except String α × World
  | 0, world => world.ask answer
  | retries + 1, world =>
    let attempt := world.ask answer
    match attempt.1 with
    | .ok value => (.ok value, attempt.2)
    | .error _ => retry answer retries attempt.2

/-- No disk call fails. -/
def Env.DiskOk (env : Env) : Prop := ∀ tick, env.diskFault tick = none

namespace World

variable {env : Env}

@[simp] theorem ask_fst {α : Type} (answer : Nat → α) (world : World) :
    (world.ask answer).1 = answer world.tick := rfl

@[simp] theorem ask_store {α : Type} (answer : Nat → α) (world : World) :
    (world.ask answer).2.store = world.store := rfl

@[simp] theorem ask_localStore {α : Type} (answer : Nat → α) (world : World) :
    (world.ask answer).2.localStore = world.localStore := rfl

theorem call_ok (diskOk : env.DiskOk) {α : Type} (effect : LocalStore → α × LocalStore) (world : World) :
    world.call env effect = (.ok (effect world.localStore).1,
        { world with localStore := (effect world.localStore).2, tick := world.tick + 1 }) := by
  simp [call, diskOk world.tick]

@[simp] theorem call_store {α : Type} (effect : LocalStore → α × LocalStore) (world : World) :
    (world.call env effect).2.store = world.store := by
  unfold call
  split <;> rfl

/-- A disk call either does its effect or leaves the store. -/
theorem call_localStore_rel {R : LocalStore → LocalStore → Prop} (refl : ∀ store, R store store)
    {α : Type} {effect : LocalStore → α × LocalStore} (does : ∀ store, R store (effect store).2)
    (world : World) : R world.localStore (world.call env effect).2.localStore := by
  unfold call
  split
  · exact refl _
  · exact does _

@[simp] theorem write_store (effect : LocalStore → LocalStore) (world : World) :
    (world.write env effect).store = world.store := call_store _ _

theorem write_localStore (diskOk : env.DiskOk) (effect : LocalStore → LocalStore) (world : World) :
    (world.write env effect).localStore = effect world.localStore := by
  simp [write, call_ok diskOk]

@[simp] theorem writeAll_store (effects : List (LocalStore → LocalStore)) (world : World) :
    (world.writeAll env effects).store = world.store := by
  induction effects generalizing world with
  | nil => rfl
  | cons effect rest ih =>
    unfold writeAll
    dsimp only
    split
    · exact call_store _ _
    · rw [ih]
      exact call_store _ _

theorem writeAll_singleton (effect : LocalStore → LocalStore) (world : World) :
    world.writeAll env [effect] = world.write env effect := by
  simp only [writeAll, write]
  split <;> rfl

theorem writeAll_localStore (diskOk : env.DiskOk) (effects : List (LocalStore → LocalStore)) (world : World) :
    (world.writeAll env effects).localStore = effects.foldl (fun store effect => effect store) world.localStore := by
  induction effects generalizing world with
  | nil => rfl
  | cons effect rest ih => simp [writeAll, call_ok diskOk, ih]

@[simp] theorem deleteMail_store (elementId : String) (world : World) :
    (world.deleteMail env elementId).store = world.store := writeAll_store _ _

theorem deleteMail_localStore (diskOk : env.DiskOk) (elementId : String) (world : World) :
    (world.deleteMail env elementId).localStore =
      ((world.localStore.deleteMailRow elementId).deleteEml elementId).unindexBody elementId :=
  writeAll_localStore diskOk _ _

@[simp] theorem mapStore_store (change : MailStore → MailStore) (world : World) :
    (world.mapStore change).store = change world.store := rfl

@[simp] theorem mapStore_localStore (change : MailStore → MailStore) (world : World) :
    (world.mapStore change).localStore = world.localStore := rfl

end World

/-- Retrying reads neither store and writes neither. -/
theorem retry_stores {α : Type} (answer : Nat → Except String α) (retries : Nat) (world : World) :
    (retry answer retries world).2.store = world.store ∧
      (retry answer retries world).2.localStore = world.localStore := by
  induction retries generalizing world with
  | zero => exact ⟨rfl, rfl⟩
  | succ retries ih =>
    unfold retry
    dsimp only
    split
    · exact ⟨rfl, rfl⟩
    · exact ih _

/-- A result of `retry` is an answer the server gave at some tick. -/
theorem retry_eq_ok_imp {α : Type} {answer : Nat → Except String α} {retries : Nat} {world : World}
    {value : α} (succeeded : (retry answer retries world).1 = .ok value) : ∃ tick, answer tick = .ok value := by
  induction retries generalizing world with
  | zero => exact ⟨world.tick, succeeded⟩
  | succ retries ih =>
    unfold retry at succeeded
    dsimp only at succeeded
    split at succeeded
    next answered =>
      cases succeeded
      exact ⟨world.tick, answered⟩
    next => exact ih succeeded

/-- The first attempt the server answers is the result of `retry`. -/
theorem retry_fst_of_first {α : Type} {answer : Nat → Except String α} {retries attempt : Nat}
    {world : World} {value : α} (inTime : attempt ≤ retries) (succeeds : answer (world.tick + attempt) = .ok value)
    (first : ∀ earlier < attempt, (answer (world.tick + earlier)).isOk = false) :
    (retry answer retries world).1 = .ok value := by
  induction retries generalizing world attempt with
  | zero =>
    obtain rfl : attempt = 0 := Nat.le_zero.mp inTime
    exact succeeds
  | succ retries ih =>
    unfold retry
    cases attempt with
    | zero =>
      rw [Nat.add_zero] at succeeds
      simp [World.ask_fst, succeeds]
    | succ attempt =>
      have failed := first 0 (Nat.succ_pos attempt)
      rw [Nat.add_zero] at failed
      cases answered : answer world.tick with
      | ok =>
        rw [answered] at failed
        cases failed
      | error message =>
        simp only [World.ask_fst, answered]
        apply ih (Nat.le_of_succ_le_succ inTime)
        · rw [← succeeds]
          congr 1
          exact Nat.succ_add_eq_add_succ _ _
        · intro earlier before
          have missed := first (earlier + 1) (Nat.succ_lt_succ before)
          rw [← missed]
          congr 2
          exact Nat.succ_add_eq_add_succ _ _

/-- `retry` fails when no attempt is answered. -/
theorem retry_fst_of_none {α : Type} {answer : Nat → Except String α} {retries : Nat} {world : World}
    (fail : ∀ attempt ≤ retries, (answer (world.tick + attempt)).isOk = false) :
    (retry answer retries world).1.isOk = false := by
  induction retries generalizing world with
  | zero => exact fail 0 (Nat.le_refl 0)
  | succ retries ih =>
    unfold retry
    have failed := fail 0 (Nat.zero_le _)
    rw [Nat.add_zero] at failed
    cases answered : answer world.tick with
    | ok =>
      rw [answered] at failed
      cases failed
    | error message =>
      simp only [World.ask_fst, answered]
      apply ih
      intro attempt inTime
      rw [← fail (attempt + 1) (Nat.succ_le_succ inTime)]
      congr 2
      exact Nat.succ_add_eq_add_succ _ _

end TutaBridge.Bridge
