import TutaBridge.Imap.Session
import TutaBridge.Runs.Completeness

/-!
# What a FETCH of bodies answers with

A FETCH takes its messages one by one and awaits in between, so each of its pieces
finds the stores as the other tasks left them. `runFetch` is the command on the list
of the states that its pieces find. A message whose body is neither in the cache nor
readable when the answer is looked up is answered with a placeholder, rendered from
the metadata alone.
-/

namespace TutaBridge.Runs

open TutaBridge.Std Tuta Store Bridge Sync
open Events Imap

variable (env : Env)

variable {IsFile : IdTuple → TutanotaFile × List UInt8 → Prop} {client : BodyClient}

/-! ## The command in the states it finds -/

/-- The pieces up to the answer, in the states that they find: whether the message is to be
answered, and the states that are left. None when the states run out. -/
def makeAvailable (env : Env) (target : FetchTarget) : List World → FetchPhase → Option (Bool × List World)
  | worlds, .answering => some (true, worlds)
  | worlds, .finished => some (false, worlds)
  | [], _ => none
  | world :: later, phase =>
    match fetchStep env target world phase with
    | none => none
    | some (_, next) => makeAvailable env target later next

/-- The pieces that look up the answer, in the states that they find. -/
def showBody (env : Env) (target : FetchTarget) : List World → FetchPhase →
    Option (Option BodyEntry × List World)
  | [], _ => none
  | world :: later, phase =>
    match fetchStep env target world phase with
    | none => none
    | some (_, .finished) => some (FetchPhase.answer target world phase, later)
    | some (_, next) => showBody env target later next

/-- How the part of the command for one message ends. `lookedUp` are the states that are
left when the answer is looked up, `later` those that are left then. -/
inductive MessageEnd where
  | refused
  | answered (body : Option BodyEntry) (lookedUp later : List World)

def fetchNamed (target : FetchTarget) (worlds : List World) : Option MessageEnd :=
  match makeAvailable env target worlds target.start with
  | none => none
  | some (false, _) => some .refused
  | some (true, lookedUp) =>
    (showBody env target lookedUp .answering).map fun shown => .answered shown.1 lookedUp shown.2

/-- A mail without an id is in no cache. It is downloaded, and what was downloaded is dropped. -/
def fetchNameless (mail : Mail) (bodyLoaded : Bool) (worlds : List World) : Option MessageEnd :=
  if bodyLoaded then some (.answered none [] worlds)
  else
    match worlds with
    | asked :: attached :: later =>
      match env.backend.loadMailDetails asked.tick mail with
      | .error _ => some .refused
      | .ok _ =>
        match env.backend.loadAttachments attached.tick mail with
        | .error _ => some .refused
        | .ok _ => some (.answered none [] later)
    | _ => none

def fetchMessage (folder : FolderInfo) (cached : CachedMail) (worlds : List World) :
    Option MessageEnd :=
  match cached.elementId with
  | none => fetchNameless env cached.mail cached.bodyLoaded worlds
  | some elementId =>
    fetchNamed env ⟨folder.id, elementId, cached.mail, cached.bodyLoaded⟩ worlds

/-- A message of the response. -/
structure Answered where
  index : Nat
  mail : Mail
  body : Option BodyEntry
  lookedUp : List World
deriving DecidableEq

/-- The response: a lone tagged `NO`, or the messages and a tagged `OK`. -/
inductive FetchReply where
  | refused
  | completed (messages : List Answered)
deriving DecidableEq

def FetchReply.messages : FetchReply → List Answered
  | .refused => []
  | .completed messages => messages

/-- The loop of `cmd_fetch`. A session that has selected a mailbox knows its folder. -/
def fetchMessages (env : Env) : List Nat → List Answered → ImapSession → List World → Option FetchReply
  | [], answered, _, _ => some (.completed answered)
  | index :: rest, answered, session, worlds =>
    match session.mails[index]?, session.selectedFolder with
    | some cached, some folder =>
      match fetchMessage env folder cached worlds with
      | none => none
      | some .refused => some .refused
      | some (.answered body lookedUp later) =>
        fetchMessages env rest (answered ++ [⟨index, cached.mail, body, lookedUp⟩])
          (session.modifyAt index fun cached => { cached with bodyLoaded := true }) later
    | _, _ => fetchMessages env rest answered session worlds

/-- `cmd_fetch` for items that need the body. -/
def runFetch (set : Text) (uidMode : Bool) (session : ImapSession)
    (worlds : List World) : Option FetchReply :=
  if session.state ≠ .selected then some .refused
  else fetchMessages env (session.picked set uidMode) [] session worlds

/-! ## What is sent -/

/-- The rendering without details and attachments. -/
def placeholder (mail : Mail) : String := env.rendering.mailToRfc2822 mail none []

/-- The text that the content items of a message are answered from. -/
def Answered.text (answered : Answered) : String :=
  match answered.body with
  | some body => body.rfc2822
  | none => placeholder env answered.mail

/-- The text is a complete message of the mail: one that is kept for it, or its rendering
with what the server has for it. -/
inductive Shows (env : Env) (client : BodyClient)
    (IsFile : IdTuple → TutanotaFile × List UInt8 → Prop) (mail : Mail) : String → Prop where
  | kept {elementId text : String} (named : mail.elementId = some elementId)
      (complete : Complete env client IsFile elementId text) : Shows env client IsFile mail text
  | rendered {details : Option MailDetails} {files : List (TutanotaFile × List UInt8)}
      (served : ServedDetails client mail details)
      (allFiles : List.Forall₂ IsFile mail.attachments files) :
      Shows env client IsFile mail (env.rendering.mailToRfc2822 mail details files)

/-- There is more to the message than its metadata. -/
def HasContent (mail : Mail) : Prop := bodySources mail ≠ [] ∨ mail.attachments ≠ []

instance (mail : Mail) : Decidable (HasContent mail) := inferInstanceAs (Decidable (_ ∨ _))

/-- The message is answered with a complete rendering, and with the placeholder only when
the mail has no content. -/
def Answered.Faithful (client : BodyClient)
    (IsFile : IdTuple → TutanotaFile × List UInt8 → Prop) (answered : Answered) : Prop :=
  Shows env client IsFile answered.mail (answered.text env) ∧
    (answered.body = none → ¬ HasContent answered.mail)

/-- The cache has the body in the state. -/
def cacheHolds (elementId : String) (world : World) : Bool :=
  (world.store.bodies.peek elementId).isSome

/-- The body file can be read in the state. -/
def fileReadable (elementId : String) (world : World) : Bool :=
  (readBody env elementId world).1.isSome

/-- In the states the answer is looked up in, the cache has the body at once, or the body
file can be read and the cache still has the body when it is looked up again. -/
def bodyAtHand (elementId : String) (lookedUp : List World) : Bool :=
  lookedUp[0]?.any (cacheHolds elementId) ||
    (lookedUp[1]?.any (fileReadable env elementId) && lookedUp[3]?.any (cacheHolds elementId))

/-- The same for a message of the response. -/
def Answered.atHand (answered : Answered) : Bool :=
  match answered.mail.elementId with
  | none => false
  | some elementId => bodyAtHand env elementId answered.lookedUp

/-! ## The pieces -/

section Pieces

variable {env : Env} {target : FetchTarget}

/-- The pieces a fetch has left, at most. -/
def FetchPhase.piecesLeft : FetchPhase → Nat
  | .available => 15
  | .reading => 14
  | .caching _ => 13
  | .confirming => 12
  | .deciding => 11
  | .requesting => 10
  | .attaching _ => 9
  | .writing _ => 8
  | .marking _ => 7
  | .completing _ => 6
  | .publishing _ => 5
  | .answering => 4
  | .rereading => 3
  | .recaching _ => 2
  | .touching => 1
  | .finished => 0

/-- The pieces of one message, at most. -/
def messagePieces : Nat := 15

/-- A fetch that is not over goes on: towards the answer, or to its end. -/
theorem exists_fetchStep (world : World) (phase : FetchPhase) (goesOn : 4 < FetchPhase.piecesLeft phase) :
    ∃ after next, fetchStep env target world phase = some (after, next) ∧
      FetchPhase.piecesLeft next < FetchPhase.piecesLeft phase ∧
      (4 ≤ FetchPhase.piecesLeft next ∨ next = .finished) := by
  cases phase with
  | answering | rereading | recaching | touching | finished => simp [FetchPhase.piecesLeft] at goesOn
  | caching | marking | completing | publishing =>
    exact ⟨_, _, rfl, by simp [FetchPhase.piecesLeft], .inl (by simp [FetchPhase.piecesLeft])⟩
  | available | reading | confirming | writing =>
    simp only [fetchStep]
    split <;> exact ⟨_, _, rfl, by simp [FetchPhase.piecesLeft], .inl (by simp [FetchPhase.piecesLeft])⟩
  | deciding =>
    simp only [fetchStep]
    split
    · exact ⟨_, _, rfl, by simp [FetchPhase.piecesLeft], .inr rfl⟩
    · exact ⟨_, _, rfl, by simp [FetchPhase.piecesLeft], .inl (by simp [FetchPhase.piecesLeft])⟩
  | requesting | attaching =>
    simp only [fetchStep]
    split
    · exact ⟨_, _, rfl, by simp [FetchPhase.piecesLeft], .inr rfl⟩
    · exact ⟨_, _, rfl, by simp [FetchPhase.piecesLeft], .inl (by simp [FetchPhase.piecesLeft])⟩

theorem makeAvailable_of_fetchStep {world after : World} {phase next : FetchPhase}
    (goesOn : 4 < FetchPhase.piecesLeft phase)
    (stepped : fetchStep env target world phase = some (after, next)) (rest : List World) :
    makeAvailable env target (world :: rest) phase = makeAvailable env target rest next := by
  cases phase with
  | answering | finished => simp [FetchPhase.piecesLeft] at goesOn
  | _ => simp only [makeAvailable, stepped]

theorem eq_of_piecesLeft_le {phase : FetchPhase} (before : 4 ≤ FetchPhase.piecesLeft phase ∨ phase = .finished)
    (few : FetchPhase.piecesLeft phase ≤ 4) : phase = .answering ∨ phase = .finished := by
  cases phase with
  | answering => exact .inl rfl
  | finished => exact .inr rfl
  | _ => simp [FetchPhase.piecesLeft] at before few

/-- With enough states the fetch gets to the answer or to its end. -/
theorem exists_makeAvailable (worlds : List World) (phase : FetchPhase)
    (before : 4 ≤ FetchPhase.piecesLeft phase ∨ phase = .finished)
    (enough : FetchPhase.piecesLeft phase ≤ worlds.length + 4) :
    ∃ toAnswer later, makeAvailable env target worlds phase = some (toAnswer, later) ∧ later <:+ worlds ∧
      (toAnswer = true → worlds.length + 4 ≤ later.length + FetchPhase.piecesLeft phase) := by
  induction worlds generalizing phase with
  | nil =>
    cases phase with
    | answering => exact ⟨true, [], rfl, List.suffix_refl _, fun _ => by simp [FetchPhase.piecesLeft]⟩
    | finished => exact ⟨false, [], rfl, List.suffix_refl _, fun isTrue => by cases isTrue⟩
    | _ => simp [FetchPhase.piecesLeft] at before enough
  | cons world rest ih =>
    by_cases goesOn : 4 < FetchPhase.piecesLeft phase
    · obtain ⟨after, next, stepped, fewer, stillBefore⟩ :=
        @exists_fetchStep env target world phase goesOn
      rw [List.length_cons] at enough
      obtain ⟨toAnswer, later, runs, isSuffix, left⟩ :=
        ih next stillBefore (by omega)
      refine ⟨toAnswer, later, ?_, isSuffix.trans (List.suffix_cons _ _), fun answers => ?_⟩
      · rw [← runs, makeAvailable_of_fetchStep goesOn stepped]
      · have := left answers
        rw [List.length_cons]
        omega
    · obtain rfl | rfl := eq_of_piecesLeft_le before (Nat.le_of_not_lt goesOn)
      · exact ⟨true, _, rfl, List.suffix_refl _, fun _ => by simp [FetchPhase.piecesLeft]⟩
      · exact ⟨false, _, rfl, List.suffix_refl _, fun isTrue => by cases isTrue⟩

/-- The answer is a body exactly when one is at hand, and then it is what the cache has. -/
theorem exists_showBody (worlds : List World) (enough : 4 ≤ worlds.length) :
    ∃ body later, showBody env target worlds .answering = some (body, later) ∧
      later <:+ worlds ∧ worlds.length ≤ later.length + 4 ∧ body.isSome = bodyAtHand env target.elementId worlds ∧
      ∀ entry ∈ body, ∃ world ∈ worlds, world.store.bodies.peek target.elementId = some entry := by
  obtain ⟨first, second, third, fourth, rest, rfl⟩ :
      ∃ first second third fourth rest, worlds = first :: second :: third :: fourth :: rest := by
    rcases worlds with _ | ⟨first, _ | ⟨second, _ | ⟨third, _ | ⟨fourth, rest⟩⟩⟩⟩
    case cons.cons.cons.cons => exact ⟨first, second, third, fourth, rest, rfl⟩
    all_goals simp at enough
  have looked : ∀ world : World, (lookUp target.elementId world).1 =
      world.store.bodies.peek target.elementId := fun world => BodyCache.cached_fst _ _
  cases hit : (lookUp target.elementId first).1 with
  | some entry =>
    refine ⟨some entry, second :: third :: fourth :: rest, ?_, List.suffix_cons _ _, ?_, ?_, ?_⟩
    · simp only [showBody, fetchStep, hit, FetchPhase.answer]
    · simp only [List.length_cons]
      omega
    · rw [looked] at hit
      simp [bodyAtHand, cacheHolds, hit]
    · rintro found ⟨⟩
      exact ⟨first, List.mem_cons_self, (looked first).symm.trans hit⟩
  | none =>
    have notHeld : first.store.bodies.peek target.elementId = none := (looked first).symm.trans hit
    cases read : (readBody env target.elementId second).1 with
    | none =>
      refine ⟨none, third :: fourth :: rest, ?_, ⟨[first, second], rfl⟩, ?_, ?_, ?_⟩
      · simp only [showBody, fetchStep, hit, read, FetchPhase.answer]
      · simp only [List.length_cons]
        omega
      · simp [bodyAtHand, cacheHolds, notHeld, fileReadable, read]
      · exact fun _ isNone => absurd isNone (Option.not_mem_none _)
    | some rfc2822 =>
      refine ⟨(lookUp target.elementId fourth).1, rest, ?_, ⟨[first, second, third, fourth], rfl⟩, ?_, ?_, ?_⟩
      · simp only [showBody, fetchStep, hit, read, FetchPhase.answer]
      · simp only [List.length_cons]
        omega
      · rw [looked]
        simp [bodyAtHand, cacheHolds, notHeld, fileReadable, read]
      · intro entry found
        exact ⟨fourth, by simp, (looked fourth).symm.trans found⟩

/-! ## The whole command -/

/-- A message is answered from the view, with a body exactly when one was at hand, and then
with what the cache had in one of the states. -/
structure Answered.Sound (env : Env) (session : ImapSession) (worlds : List World)
    (answered : Answered) : Prop where
  viewed : (session.mails[answered.index]?).map CachedMail.mail = some answered.mail
  atHand : answered.body.isSome = answered.atHand env
  cached : ∀ entry ∈ answered.body, ∃ elementId, answered.mail.elementId = some elementId ∧
    ∃ world ∈ worlds, world.store.bodies.peek elementId = some entry

theorem exists_fetchMessage {session : ImapSession} {index : Nat} {cached : CachedMail}
    (viewed : session.mails[index]? = some cached) (folder : FolderInfo) {worlds all : List World}
    (among : worlds <:+ all) (enough : messagePieces ≤ worlds.length) :
    fetchMessage env folder cached worlds = some .refused ∨ ∃ body lookedUp later,
        fetchMessage env folder cached worlds = some (.answered body lookedUp later) ∧
        (Answered.mk index cached.mail body lookedUp).Sound env session all ∧
        later <:+ worlds ∧ worlds.length ≤ later.length + messagePieces := by
  have inView : (session.mails[index]?).map CachedMail.mail = some cached.mail := by rw [viewed]; rfl
  unfold fetchMessage
  cases named : cached.elementId with
  | none =>
    have nameless : cached.mail.elementId = none := named
    have sound : (Answered.mk index cached.mail none []).Sound env session all :=
      ⟨inView, by simp [Answered.atHand, nameless], fun _ isNone => absurd isNone (Option.not_mem_none _)⟩
    rcases worlds with _ | ⟨asked, _ | ⟨attached, rest⟩⟩
    case cons.cons =>
      simp only [fetchNameless]
      split
      · exact .inr ⟨none, [], _, rfl, sound, List.suffix_refl _, Nat.le_add_right _ _⟩
      · split
        · exact .inl rfl
        · split
          · exact .inl rfl
          · refine .inr ⟨none, [], rest, rfl, sound, ⟨[asked, attached], rfl⟩, ?_⟩
            simp only [List.length_cons, messagePieces]
            omega
    all_goals simp [messagePieces] at enough
  | some elementId =>
    have isNamed : cached.mail.elementId = some elementId := named
    let target : FetchTarget := ⟨folder.id, elementId, cached.mail, cached.bodyLoaded⟩
    have atStart : 4 ≤ FetchPhase.piecesLeft target.start ∧
        FetchPhase.piecesLeft target.start ≤ messagePieces := by
      unfold FetchTarget.start
      split <;> simp [FetchPhase.piecesLeft, messagePieces]
    obtain ⟨toAnswer, lookedUp, available, fromWorlds, left⟩ :=
      @exists_makeAvailable env target worlds target.start (.inl atStart.1) (by omega)
    cases toAnswer with
    | false =>
      refine .inl ?_
      show fetchNamed env target worlds = some .refused
      simp only [fetchNamed, available]
    | true =>
      have leftToShow := left rfl
      obtain ⟨body, later, shown, fromLookedUp, leftAfter, atHand, cachedThen⟩ :=
        @exists_showBody env target lookedUp (by omega)
      refine .inr ⟨body, lookedUp, later, ?_, ⟨inView, ?_, ?_⟩, fromLookedUp.trans fromWorlds, ?_⟩
      · show fetchNamed env target worlds = some (.answered body lookedUp later)
        simp only [fetchNamed, available, shown, Option.map_some]
      · simp only [Answered.atHand, isNamed]
        exact atHand
      · intro entry found
        obtain ⟨world, mem, held⟩ := cachedThen entry found
        exact ⟨elementId, isNamed, world, (fromWorlds.trans among).subset mem, held⟩
      · omega

/-- A message keeps its mail when its body is noted as loaded. -/
theorem map_mail_modifyAt (session : ImapSession) (index other : Nat) :
    (((session.modifyAt index fun cached => { cached with bodyLoaded := true }).mails)[other]?).map
      CachedMail.mail = (session.mails[other]?).map CachedMail.mail := by
  rw [ImapSession.modifyAt, List.getElem?_modify]
  cases session.mails[other]? <;> simp [apply_ite]

/-- With enough states the command ends, and every message it answers is answered as the
states had it. -/
theorem exists_fetchMessages {original : ImapSession} {all : List World} (indices : List Nat)
    (answered : List Answered) (session : ImapSession) (worlds : List World)
    (sameMails : ∀ index : Nat, (session.mails[index]?).map CachedMail.mail =
      (original.mails[index]?).map CachedMail.mail)
    (among : worlds <:+ all) (enough : messagePieces * indices.length ≤ worlds.length)
    (sound : ∀ message ∈ answered, message.Sound env original all) :
    ∃ reply, fetchMessages env indices answered session worlds = some reply ∧
      ∀ message ∈ reply.messages, message.Sound env original all := by
  induction indices generalizing answered session worlds with
  | nil => exact ⟨.completed answered, rfl, sound⟩
  | cons index rest ih =>
    rw [List.length_cons, Nat.mul_succ] at enough
    unfold fetchMessages
    split
    next cached folder viewed _ =>
      rcases @exists_fetchMessage env _ _ _ viewed folder _ _ among (by omega) with
        refuses | ⟨body, lookedUp, later, answers, isSound, isSuffix, left⟩
      · rw [refuses]
        exact ⟨.refused, rfl, fun _ none => absurd none List.not_mem_nil⟩
      · rw [answers]
        refine ih _ _ later (fun other => ?_) (isSuffix.trans among) (by omega) ?_
        · rw [map_mail_modifyAt, sameMails]
        · intro message mem
          rcases List.mem_append.mp mem with before | isThis
          · exact sound message before
          · rw [List.mem_singleton.mp isThis]
            exact ⟨(sameMails index).symm.trans isSound.viewed, isSound.atHand, isSound.cached⟩
    next => exact ih answered session worlds sameMails among (by omega) sound

end Pieces

/-! ## Every command -/

/-- A state of the stores that a run of the bridge can reach. -/
def Reachable (client : BodyClient) (world : World) : Prop :=
  ∃ (start final : Readers) (schedule : List ReaderLabel), start.Blank ∧
    (∀ label ∈ schedule, label.Sourced (detailsEnv env client)) ∧
    Steps (readerStep (detailsEnv env client)) start schedule final ∧ final.world = world

/-- What the cache of a reachable state has is a complete message. -/
theorem Reachable.complete {env : Env} {world : World} {elementId : String}
    {entry : BodyEntry} (allFiles : LoadsAllFiles env IsFile) (reachable : Reachable env client world)
    (held : world.store.bodies.peek elementId = some entry) :
    Complete (detailsEnv env client) client IsFile elementId entry.rfc2822 := by
  obtain ⟨start, final, schedule, blank, sourced, steps, rfl⟩ := reachable
  exact storedTexts_complete allFiles blank sourced steps elementId entry.rfc2822
    (mem_storedTexts_iff.mpr (.inr ⟨entry, held, rfl⟩))

/-- The placeholder of a mail without content is its complete rendering. -/
theorem shows_placeholder {env : Env} {mail : Mail} (bare : ¬ HasContent mail) :
    Shows env client IsFile mail (placeholder env mail) := by
  obtain ⟨noSource, noFile⟩ := not_or.mp bare
  refine .rendered (.absent (not_not.mp noSource)) ?_
  rw [not_not.mp noFile]
  exact .nil

/-- A message is faithful exactly when a body was at hand, or the mail has no content. -/
theorem Answered.faithful_iff {env : Env} {session : ImapSession}
    {worlds : List World} {answered : Answered} (allFiles : LoadsAllFiles env IsFile)
    (reachable : ∀ world ∈ worlds, Reachable env client world)
    (sound : answered.Sound (detailsEnv env client) session worlds) :
    answered.Faithful (detailsEnv env client) client IsFile ↔
      answered.atHand (detailsEnv env client) = true ∨ ¬ HasContent answered.mail := by
  obtain ⟨index, mail, body, lookedUp⟩ := answered
  constructor
  · intro faithful
    cases body with
    | none => exact .inr (faithful.2 rfl)
    | some entry => exact .inl (sound.atHand.symm.trans rfl)
  · intro condition
    cases body with
    | none =>
      have bare : ¬ HasContent mail := condition.resolve_left fun atHand => by
        have := sound.atHand.trans atHand
        cases this
      exact ⟨shows_placeholder bare, fun _ => bare⟩
    | some entry =>
      obtain ⟨elementId, named, world, mem, held⟩ := sound.cached entry rfl
      exact ⟨.kept named ((reachable world mem).complete allFiles held), fun isNone => by cases isNone⟩

/-- A FETCH of bodies ends, whatever states its pieces find. It refuses, or answers messages
of the view; and it answers all of them faithfully exactly when for each of them a body is
at hand where its answer is looked up, or the mail has no content. -/
theorem fetch_faithful_iff {env : Env} {client : BodyClient}
    {IsFile : IdTuple → TutanotaFile × List UInt8 → Prop} {session : ImapSession} {set : Text}
    {uidMode : Bool} {worlds : List World} (allFiles : LoadsAllFiles env IsFile)
    (reachable : ∀ world ∈ worlds, Reachable env client world)
    (enough : messagePieces * (session.picked set uidMode).length ≤ worlds.length) :
    ∃ reply, runFetch (detailsEnv env client) set uidMode session worlds = some reply ∧ (∀ answered ∈ reply.messages,
        (session.mails[answered.index]?).map CachedMail.mail = some answered.mail) ∧
      ((∀ answered ∈ reply.messages, answered.Faithful (detailsEnv env client) client IsFile) ↔
        ∀ answered ∈ reply.messages, answered.atHand (detailsEnv env client) = true ∨ ¬ HasContent answered.mail) := by
  obtain ⟨reply, runs, sound⟩ : ∃ reply,
      runFetch (detailsEnv env client) set uidMode session worlds = some reply ∧
        ∀ message ∈ reply.messages, message.Sound (detailsEnv env client) session worlds := by
    unfold runFetch
    split
    · exact ⟨.refused, rfl, fun _ none => absurd none List.not_mem_nil⟩
    · exact exists_fetchMessages _ [] session worlds (fun _ => rfl) (List.suffix_refl _) enough
        fun _ none => absurd none List.not_mem_nil
  exact ⟨reply, runs, fun answered mem => (sound answered mem).viewed, forall₂_congr fun answered mem =>
      Answered.faithful_iff allFiles reachable (sound answered mem)⟩

/-- The client has the folder open, and the view's mail is loaded. -/
def loadedView : ImapSession := sampleSession draftsFolder [⟨attachedMail, true, 1, false⟩]

/-- The body is in the cache, and the client gets the complete message. -/
theorem fetch_faithful_iff_cached : ∃ world reply, Reachable attachingEnv sourceClient world ∧
      runFetch (detailsEnv attachingEnv sourceClient) ['1'] false loadedView
        (List.replicate messagePieces world) = some reply ∧
      reply.messages.length = 1 ∧ ∀ answered ∈ reply.messages,
        answered.Faithful (detailsEnv attachingEnv sourceClient) sourceClient NamedFile := by
  obtain ⟨final, steps, answers⟩ :
      ∃ final, Steps (readerStep (detailsEnv attachingEnv sourceClient)) freshReaders attachedSchedule final ∧
        (runFetch (detailsEnv attachingEnv sourceClient) ['1'] false loadedView
          (List.replicate messagePieces final.world)).any (fun reply =>
            reply.messages.length = 1 ∧ ∀ answered ∈ reply.messages,
              answered.atHand (detailsEnv attachingEnv sourceClient) = true) = true :=
    Steps.exists_of_any _ (by decide +kernel)
  obtain ⟨expected, runsTo, isSingle⟩ := (Option.any_eq_true _ _).mp answers
  have shape := of_decide_eq_true isSingle
  have reachable : Reachable attachingEnv sourceClient final.world :=
    ⟨freshReaders, final, attachedSchedule, ⟨fun _ => rfl, rfl, rfl⟩, attachedSchedule_sourced _, steps,
      rfl⟩
  obtain ⟨reply, runs, _, faithful⟩ := @fetch_faithful_iff attachingEnv sourceClient NamedFile
    loadedView ['1'] false (List.replicate messagePieces final.world) attachingEnv_loadsAllFiles
    (fun world mem => by
      rw [List.eq_of_mem_replicate mem]
      exact reachable)
    (by simp only [List.length_replicate]; decide)
  obtain rfl : reply = expected := Option.some.inj (runs.symm.trans runsTo)
  exact ⟨final.world, reply, reachable, runs, shape.1, faithful.mpr fun answered mem =>
    .inl (shape.2 answered mem)⟩

/-! ## A body file that cannot be read -/

/-- The same server, and a disk that fails from the restart on. -/
def unreadableEnv : Env :=
  { attachingEnv with diskFault := fun tick => if 11 ≤ tick then some .crypto else none }

/-- The bridge is restarted after the body was downloaded. -/
def restartedSchedule : List ReaderLabel := attachedSchedule ++ [.reopen schemaVersion]

/-- The fetch of the view's mail looks into the cache. -/
def firstLook : List ReaderLabel :=
  [.beginFetch ⟨draftsFolder.id, "m1", attachedMail, true⟩, .fetch 0]

/-- The view's mail is loaded and its complete message is on disk, but the file cannot be
read. The client is sent the metadata and an `OK`. -/
theorem unreadable_body_serves_placeholder : ∃ before after, Reachable unreadableEnv sourceClient before ∧
      Reachable unreadableEnv sourceClient after ∧
      before.localStore.readEml "m1" = some "Subjectd1f1" ∧
      runFetch (detailsEnv unreadableEnv sourceClient) ['1'] false loadedView [before, after] =
        some (.completed [⟨0, attachedMail, none, [before, after]⟩]) ∧
      ¬ (Answered.mk 0 attachedMail none [before, after]).Faithful
        (detailsEnv unreadableEnv sourceClient) sourceClient NamedFile := by
  have fetched : ∀ label ∈ restartedSchedule, label.Sourced (detailsEnv unreadableEnv sourceClient) := by
    intro label mem
    rcases List.mem_append.mp mem with before | last
    · exact attachedSchedule_sourced _ label before
    · rw [List.mem_singleton.mp last]
      trivial
  have looked : ∀ label ∈ restartedSchedule ++ firstLook,
      label.Sourced (detailsEnv unreadableEnv sourceClient) := by
    intro label mem
    rcases List.mem_append.mp mem with before | last
    · exact fetched label before
    · simp only [firstLook, List.mem_cons, List.not_mem_nil, or_false] at last
      rcases last with rfl | rfl
      · rfl
      · trivial
  have blank : freshReaders.Blank := ⟨fun _ => rfl, rfl, rfl⟩
  obtain ⟨before, restarted, onDisk, thenLooks⟩ :
      ∃ before, Steps (readerStep (detailsEnv unreadableEnv sourceClient)) freshReaders
          restartedSchedule before ∧
        before.world.localStore.readEml "m1" = some "Subjectd1f1" ∧
        (firstLook.foldlM (readerStep (detailsEnv unreadableEnv sourceClient)) before).any
          (fun after => runFetch (detailsEnv unreadableEnv sourceClient) ['1'] false loadedView
              [before.world, after.world] =
            some (.completed [⟨0, attachedMail, none, [before.world, after.world]⟩])) = true :=
    Steps.exists_of_any _ (by decide +kernel)
  obtain ⟨after, looks, answers⟩ := Steps.exists_of_any _ thenLooks
  exact ⟨before.world, after.world, ⟨_, before, _, blank, fetched, restarted, rfl⟩,
    ⟨_, after, _, blank, looked, restarted.append looks, rfl⟩, onDisk, answers,
    fun faithful => faithful.2 rfl (show HasContent attachedMail by decide)⟩

end TutaBridge.Runs
