import TutaBridge.Events.Handler
import TutaBridge.Imap.Fetch
import TutaBridge.Std.Text
import Mathlib.Data.List.Destutter

/-!
# The IMAP session

`ImapSession` keeps its own copy of the selected folder, `mails`, in the order
of UIDs. The copy changes with the client's commands, and `checkNewMail` replaces
it by the store's content when a client that idles is to be told of a change. A
command is taken as its parsed form: the mailbox names are decoded, and a STORE
carries what its text was found to contain.
-/

namespace TutaBridge.Imap

open TutaBridge.Std Tuta Store Bridge Sync
open Events

variable (server : Server)

inductive SessionState where
  | notAuthenticated
  | authenticated
  | selected
  | logout
deriving DecidableEq, Repr

/-- A message of the session's view. -/
structure CachedMail where
  mail : Mail
  bodyLoaded : Bool
  uid : Nat
  deleted : Bool
deriving DecidableEq, Repr

def CachedMail.elementId (cached : CachedMail) : Option String := cached.mail.elementId

structure ImapSession where
  passwordHash : Option String
  state : SessionState
  selectedFolder : Option FolderInfo
  mails : List CachedMail
  uidNext : Nat
  idleTag : Option String
deriving DecidableEq, Repr

inductive Status where
  | ok
  | no
deriving DecidableEq, Repr

/-- The responses that tell the client of messages or end a command. -/
inductive Response where
  | expunge (seq : Nat)
  | exist (count : Nat)
  | uidNext (uid : Nat)
  | unseen (seq : Nat)
  | fetch (seq : Nat) (body : Option BodyEntry)
  | tagged (status : Status)
deriving DecidableEq

/-- The calls of `MailBackend` that change the mailbox on the server. -/
inductive Request where
  | trashMails (ids : List IdTuple)
  | deleteMails (ids : List IdTuple) (folder : FolderInfo)
  | moveMails (ids : List IdTuple) (target : FolderInfo)
  | setUnreadStatus (ids : List IdTuple) (unread : Bool)
deriving DecidableEq

/-- How the server answers a request, by the tick it is made at. -/
abbrev Server := Nat → Request → Except String Unit

/-! ## Sequence sets -/

/-- A number of a sequence set; what does not parse is `0`. -/
def parseSeqNum (text : Text) (last : Nat) : Nat :=
  if text = ['*'] then last else (Text.parseUnsigned 32 text).getD 0

/-- The index of the message with the UID, or with the sequence number. -/
def seqToIndex (uids : List Nat) (uidMode : Bool) (number : Nat) : Option Nat :=
  if uidMode then uids.findIdx? (· = number)
  else if 1 ≤ number ∧ number ≤ uids.length then some (number - 1)
  else none

/-- The indices one element of a sequence set stands for. -/
def resolvePart (uids : List Nat) (uidMode : Bool) (last : Nat) (part : Text) : List Nat :=
  match Text.splitOnce ':' part with
  | some (first, second) =>
    let start := parseSeqNum first last
    let stop := parseSeqNum second last
    let low := min start stop
    let high := max start stop
    (List.range' low (high + 1 - low)).filterMap (seqToIndex uids uidMode)
  | none => (seqToIndex uids uidMode (parseSeqNum part last)).toList

/-- What `*` stands for. -/
def lastNumber (uids : List Nat) (uidMode : Bool) : Nat :=
  if uidMode then uids.max?.getD 0 else uids.length % 2 ^ 32

/-- `resolve_sequence_set` on the UIDs of the view: the indices of the set,
ascending and each once. -/
def resolveSequenceSet (uids : List Nat) (set : Text) (uidMode : Bool) : List Nat :=
  let picked := (set.splitOn ',').flatMap fun part =>
    resolvePart uids uidMode (lastNumber uids uidMode) (Text.trim part)
  (picked.insertionSort (· ≤ ·)).destutter (· ≠ ·)

/-- Look up a folder by its IMAP path, without regard to ASCII case. -/
def folderByImapPath (store : MailStore) (path : String) : Option FolderInfo :=
  store.folderList.find? fun folder =>
    folder.imapPath = path ∨ folder.imapPath.toLower = path.toLower

namespace ImapSession

def uids (session : ImapSession) : List Nat := session.mails.map CachedMail.uid

/-- The messages a sequence set stands for. -/
def picked (session : ImapSession) (set : Text) (uidMode : Bool) : List Nat :=
  resolveSequenceSet session.uids set uidMode

/-- The ids of the messages at the indices. -/
def idsAt (session : ImapSession) (indices : List Nat) : List IdTuple :=
  indices.filterMap fun index => (session.mails[index]?).bind (·.mail.id)

/-! ## The view -/

/-- A message as it enters the view, without `\Deleted`. -/
def cache (stored : StoredMail) : CachedMail := ⟨stored.mail, stored.bodyLoaded, stored.uid, false⟩

/-- The mails of a folder in the order of their UIDs. -/
def byUid (mails : List StoredMail) : List StoredMail :=
  mails.insertionSort fun left right => left.uid ≤ right.uid

/-- Replace the view by the folder's content. -/
def refreshMails (folderId : String) (store : MailStore) (session : ImapSession) : ImapSession :=
  let stored := byUid (store.getFolder folderId)
  { session with
    mails := stored.map cache
    uidNext := stored.foldl (fun next mail => if next ≤ mail.uid then mail.uid + 1 else next)
      session.uidNext }

/-- The sequence numbers of the messages of the view that are not among the ids. -/
def departed (ids : List String) : (seq : Nat) → List CachedMail → List Nat
  | _, [] => []
  | seq, cached :: rest =>
    match cached.elementId with
    | none => departed ids (seq + 1) rest
    | some id => if id ∈ ids then departed ids (seq + 1) rest else seq :: departed ids (seq + 1) rest

/-- The number of mails the view does not have. -/
def added (view : List CachedMail) (mails : List StoredMail) : Nat :=
  mails.countP fun stored =>
    match stored.elementId with
    | none => false
    | some id => id ∉ view.filterMap CachedMail.elementId

/-- Whether the folder's content is another than the view's. -/
def changed (view : List CachedMail) (mails : List StoredMail) : Bool :=
  departed (mails.filterMap StoredMail.elementId) 1 view ≠ [] ∨ added view mails ≠ 0 ∨
    mails.length ≠ view.length

/-- `check_new_mail`. The store is read twice, `read` and `reread`: once to
compare, and again to refresh the view. -/
def checkNewMail (read reread : MailStore) (session : ImapSession) : List Response × ImapSession :=
  match session.selectedFolder with
  | none => ([], session)
  | some folder =>
    let mails := read.getFolder folder.id
    if changed session.mails mails then
      let expunges := departed (mails.filterMap StoredMail.elementId) 1 session.mails
      let refreshed := session.refreshMails folder.id reread
      ((expunges.insertionSort (· ≥ ·)).map .expunge ++ [.exist refreshed.mails.length], refreshed)
    else ([], session)

/-! ## Commands -/

/-- What a STORE was found to contain: `+FLAGS`, `-FLAGS`, `\Seen`, `\Deleted`. -/
structure FlagChange where
  adding : Bool
  removing : Bool
  seen : Bool
  deleted : Bool
deriving DecidableEq, Repr

end ImapSession

/-- A parsed line of the client. `login` stands for LOGIN and for AUTHENTICATE
PLAIN with its answer, `select` also for EXAMINE, and `other` for the commands
that change neither the session nor the mailbox: CAPABILITY, NOOP, LIST, LSUB,
STATUS, SEARCH, COPY, NAMESPACE and what is not known. -/
inductive Command where
  | login (password : String)
  | logout
  | select (mailbox : String)
  | fetch (set : Text) (uidMode needsBody : Bool)
  | store (set : Text) (uidMode : Bool) (change : ImapSession.FlagChange)
  | expunge
  | move (set : Text) (uidMode : Bool) (mailbox : String)
  | close
  | idle (tag : String)
  | done
  | other
deriving DecidableEq, Repr

/-- What a command sends to the server and to the client. -/
structure Reply where
  requests : List Request
  responses : List Response

namespace ImapSession

/-- Change the message at the index. -/
def modifyAt (index : Nat) (change : CachedMail → CachedMail) (session : ImapSession) : ImapSession :=
  { session with mails := session.mails.modify index change }

/-- A FETCH of a mail without an id, which no cache is asked for. -/
def fetchUnnamed (env : Env) (mail : Mail) (world : World) : Bool × World :=
  let details := world.ask fun tick => env.backend.loadMailDetails tick mail
  match details.1 with
  | .error _ => (false, details.2)
  | .ok _ =>
    let attachments := details.2.ask fun tick => env.backend.loadAttachments tick mail
    (attachments.1.isOk, attachments.2)

/-- The bodies of the messages at the indices. A body that cannot be had ends the
command with a lone `NO`. -/
def fetchBodies (env : Env) : List Nat → List Response → ImapSession → World →
    List Response × ImapSession × World
  | [], responses, session, world => (responses ++ [.tagged .ok], session, world)
  | index :: rest, responses, session, world =>
    match session.mails[index]?, session.selectedFolder with
    | some cached, some folder =>
      match cached.elementId with
      | some elementId =>
        let fetched := fetchBody env ⟨folder.id, elementId, cached.mail, cached.bodyLoaded⟩ world
        match fetched.1 with
        | none => ([.tagged .no], session, fetched.2)
        | some body =>
          fetchBodies env rest (responses ++ [.fetch (index + 1) body])
            (session.modifyAt index fun cached => { cached with bodyLoaded := true }) fetched.2
      | none =>
        if cached.bodyLoaded then
          fetchBodies env rest (responses ++ [.fetch (index + 1) none]) session world
        else
          let fetched := fetchUnnamed env cached.mail world
          if fetched.1 then
            fetchBodies env rest (responses ++ [.fetch (index + 1) none])
              (session.modifyAt index fun cached => { cached with bodyLoaded := true }) fetched.2
          else ([.tagged .no], session, fetched.2)
    | _, _ => fetchBodies env rest responses session world

/-- `cmd_fetch`. Without a body item the messages are answered from what is at
hand. -/
def cmdFetch (env : Env) (set : Text) (uidMode needsBody : Bool) (session : ImapSession)
    (world : World) : List Response × ImapSession × World :=
  if session.state ≠ .selected then ([.tagged .no], session, world)
  else if needsBody then fetchBodies env (session.picked set uidMode) [] session world
  else
    ((session.picked set uidMode).map (fun index => .fetch (index + 1) none) ++ [.tagged .ok], session, world)

/-- The `\Seen` half of `cmd_store`: the view first, then the server. -/
def storeSeen (indices : List Nat) (adding : Bool) (session : ImapSession)
    (world : World) : List Request × ImapSession × World :=
  let marked := indices.foldl (fun session index =>
    session.modifyAt index fun cached =>
      { cached with mail := { cached.mail with unread := !adding } }) session
  let ids := marked.idsAt indices
  if ids.isEmpty then ([], marked, world)
  else
    let request := Request.setUnreadStatus ids !adding
    ([request], marked, (world.ask fun tick => server tick request).2)

/-- `cmd_store`. -/
def cmdStore (set : Text) (uidMode : Bool) (change : FlagChange)
    (session : ImapSession) (world : World) : Reply × ImapSession × World :=
  if session.state ≠ .selected then (⟨[], [.tagged .no]⟩, session, world)
  else
    let indices := session.picked set uidMode
    let seen :=
      if change.seen then storeSeen server indices change.adding session world
      else ([], session, world)
    let flagged :=
      if change.deleted then
        indices.foldl (fun session index =>
          session.modifyAt index fun cached => { cached with deleted := !change.removing }) seen.2.1
      else seen.2.1
    (⟨seen.1, [.tagged .ok]⟩, flagged, seen.2.2)

/-- Take the messages out of the view, each under the number it has by then. -/
def expungeWhere (gone : CachedMail → Bool) : (seq : Nat) → List CachedMail → List Response × List CachedMail
  | _, [] => ([], [])
  | seq, cached :: rest =>
    if gone cached then
      let later := expungeWhere gone seq rest
      (.expunge seq :: later.1, later.2)
    else
      let later := expungeWhere gone (seq + 1) rest
      (later.1, cached :: later.2)

/-- The ids of the messages marked `\Deleted`. -/
def deletedIds (session : ImapSession) : List IdTuple :=
  (session.mails.filter CachedMail.deleted).filterMap (·.mail.id)

/-- What an EXPUNGE asks the server for: Trash and Spam delete, any other folder
moves to Trash. -/
def expungeRequest (session : ImapSession) : Option Request :=
  if session.deletedIds.isEmpty then none
  else
    match session.selectedFolder with
    | some folder =>
      if folder.kind = .trash ∨ folder.kind = .spam then some (.deleteMails session.deletedIds folder)
      else some (.trashMails session.deletedIds)
    | none => some (.trashMails session.deletedIds)

/-- Ask the server, if there is something to ask. -/
def perform (request : Option Request) (world : World) : Except String Unit × World :=
  match request with
  | none => (.ok (), world)
  | some request => world.ask fun tick => server tick request

/-- `cmd_expunge`. -/
def cmdExpunge (session : ImapSession) (world : World) : Reply × ImapSession × World :=
  if session.state ≠ .selected then (⟨[], [.tagged .no]⟩, session, world)
  else
    let done := perform server session.expungeRequest world
    match done.1 with
    | .error _ => (⟨session.expungeRequest.toList, [.tagged .no]⟩, session, done.2)
    | .ok _ =>
      let kept := expungeWhere CachedMail.deleted 1 session.mails
      (⟨session.expungeRequest.toList, kept.1 ++ [.tagged .ok]⟩, { session with mails := kept.2 }, done.2)

/-- Whether the message is one of the moved ones. -/
def isMoved (moved : List String) (cached : CachedMail) : Bool :=
  match cached.elementId with
  | none => false
  | some id => id ∈ moved

/-- `cmd_move`. -/
def cmdMove (set : Text) (uidMode : Bool) (mailbox : String)
    (session : ImapSession) (world : World) : Reply × ImapSession × World :=
  if session.state ≠ .selected then (⟨[], [.tagged .no]⟩, session, world)
  else
    match folderByImapPath world.store mailbox with
    | none => (⟨[], [.tagged .no]⟩, session, world)
    | some target =>
      let ids := session.idsAt (session.picked set uidMode)
      if ids.isEmpty then (⟨[], [.tagged .ok]⟩, session, world)
      else
        let request := Request.moveMails ids target
        let done := perform server (some request) world
        match done.1 with
        | .error _ => (⟨[request], [.tagged .no]⟩, session, done.2)
        | .ok _ =>
          let kept := expungeWhere (isMoved (ids.map IdTuple.elementId)) 1 session.mails
          (⟨[request], kept.1 ++ [.tagged .ok]⟩, { session with mails := kept.2 }, done.2)

/-- `cmd_select`. -/
def cmdSelect (mailbox : String) (session : ImapSession) (world : World) : List Response × ImapSession :=
  if session.state = .notAuthenticated then ([.tagged .no], session)
  else
    match folderByImapPath world.store mailbox with
    | none => ([.tagged .no], session)
    | some folder =>
      let refreshed := { session with selectedFolder := some folder, state := .selected }.refreshMails
        folder.id world.store
      let unseen := match refreshed.mails.findIdx? (·.mail.unread) with
        | none => []
        | some index => [Response.unseen (index + 1)]
      (.exist refreshed.mails.length :: .uidNext refreshed.uidNext :: (unseen ++ [.tagged .ok]), refreshed)

/-- `cmd_login`: without a password of its own the bridge takes any. -/
def cmdLogin (password : String) (session : ImapSession) : List Response × ImapSession :=
  match session.passwordHash with
  | none => ([.tagged .ok], { session with state := .authenticated })
  | some expected =>
    if password ≠ expected then ([.tagged .no], session)
    else ([.tagged .ok], { session with state := .authenticated })

/-- A line of a client that idles: only `DONE` is heard. -/
def handleIdle (command : Command) (session : ImapSession) (world : World) : Reply × ImapSession × World :=
  match command with
  | .done => (⟨[], [.tagged .ok]⟩, { session with idleTag := none }, world)
  | _ => (⟨[], []⟩, session, world)

/-- A line of the client. -/
def handleCommand (env : Env) (server : Server) (command : Command) (session : ImapSession)
    (world : World) : Reply × ImapSession × World :=
  if session.idleTag.isSome then session.handleIdle command world
  else
    match command with
    | .login password =>
      let done := session.cmdLogin password
      (⟨[], done.1⟩, done.2, world)
    | .logout => (⟨[], [.tagged .ok]⟩, { session with state := .logout }, world)
    | .select mailbox =>
      let done := session.cmdSelect mailbox world
      (⟨[], done.1⟩, done.2, world)
    | .fetch set uidMode needsBody =>
      let done := session.cmdFetch env set uidMode needsBody world
      (⟨[], done.1⟩, done.2)
    | .store set uidMode change => session.cmdStore server set uidMode change world
    | .expunge => session.cmdExpunge server world
    | .move set uidMode mailbox => session.cmdMove server set uidMode mailbox world
    | .close =>
      (⟨[], [.tagged .ok]⟩,
        { session with state := .authenticated, selectedFolder := none, mails := [] }, world)
    | .idle tag => (⟨[], []⟩, { session with idleTag := some tag }, world)
    | .done | .other => (⟨[], []⟩, session, world)

end ImapSession

/-! ## A session to look at -/

/-- A message of the view with the id, the UID and the `\Deleted` flag. -/
def sampleCached (elementId : String) (uid : Nat) (deleted : Bool) : CachedMail :=
  ⟨sampleMail elementId, false, uid, deleted⟩

/-- A client has the folder selected and sees the mails. -/
def sampleSession (folder : FolderInfo) (mails : List CachedMail) : ImapSession where
  passwordHash := none
  state := .selected
  selectedFolder := some folder
  mails := mails
  uidNext := 1
  idleTag := none

end TutaBridge.Imap
