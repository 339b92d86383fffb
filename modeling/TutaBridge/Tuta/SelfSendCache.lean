import TutaBridge.Std.BoundedCache
import TutaBridge.Std.Text
import TutaBridge.Tuta.Entities

/-!
# The self-send cache

The inbox copy of a mail the account sent to itself may never get a usable file key, so
the attachments of such a submission are remembered under its subject and addresses and
served from memory. What is served is what was remembered last under the key, whichever
submission that was.
-/

namespace TutaBridge.Tuta

open TutaBridge.Std

variable (casing : Casing)

/-- `SELF_SEND_CACHE_TTL`, in nanoseconds. -/
def selfSendCacheTtl : Nat := 60 * 60 * 1000000000

/-- `SELF_SEND_CACHE_MAX_ENTRIES`. -/
def selfSendCacheMaxEntries : Nat := 50

/-- An attachment of a submission, and a `CachedAttachment`, which has the same fields. -/
structure CachedAttachment where
  filename : String
  mimeType : String
  data : List UInt8
deriving DecidableEq, Repr

/-- A `ParsedMessage`, as far as the cache reads it. -/
structure Submission where
  fromAddress : Text
  toAddresses : List Text
  ccAddresses : List Text
  bccAddresses : List Text
  subject : Text
  attachments : List CachedAttachment
deriving DecidableEq, Repr

/-- The map behind the lock. A `SelfSendCacheEntry` is the attachments and when they were stored. -/
abbrev SelfSendCache := BoundedCache Text (List CachedAttachment)

/-- The order in which the map happens to be walked. -/
abbrev SelfSendOrder := Walk (Text × Stamped (List CachedAttachment))

/-- `self_send_cache_key`. -/
def selfSendCacheKey (subject sender recipient : Text) : Text :=
  casing.toLowercase (Text.trim subject) ++ '|' :: (casing.toLowercase (Text.trim sender) ++
    '|' :: casing.toLowercase (Text.trim recipient))

/-- `is_self_recipient`. -/
def isSelfRecipient (message : Submission) (ownEmail : Text) : Bool :=
  Text.eqIgnoreAsciiCase message.fromAddress ownEmail &&
    (message.toAddresses ++ message.ccAddresses ++ message.bccAddresses).any fun address =>
      Text.eqIgnoreAsciiCase address ownEmail

/-- `cache_self_send_attachments`. -/
def cacheSelfSendAttachments (email : Text) (order : SelfSendOrder) (now : Nat)
    (message : Submission) (cache : SelfSendCache) : SelfSendCache :=
  cache.remember selfSendCacheMaxEntries order now
    (selfSendCacheKey casing message.subject message.fromAddress email) message.attachments

/-- A submission is remembered. -/
def IsRemembered (email : Text) (message : Submission) : Prop :=
  message.attachments ≠ [] ∧ isSelfRecipient message email

instance (email : Text) (message : Submission) : Decidable (IsRemembered email message) :=
  inferInstanceAs (Decidable (_ ∧ _))

/-- What `send_mail_impl` does to the cache, which is done before anything is sent and
stays done when the send fails. -/
def sendMail (email : Text) (order : SelfSendOrder) (now : Nat)
    (message : Submission) (cache : SelfSendCache) : SelfSendCache :=
  if IsRemembered email message then cacheSelfSendAttachments casing email order now message cache
  else cache

/-- `synthetic_file_for_cached`. -/
def syntheticFileForCached (attachment : CachedAttachment) : TutanotaFile :=
  ⟨attachment.filename, some attachment.mimeType, none⟩

/-- The files attachments are served as. -/
def cachedFiles (attachments : List CachedAttachment) : List (TutanotaFile × List UInt8) :=
  attachments.map fun attachment => (syntheticFileForCached attachment, attachment.data)

/-- The key a mail is looked up under: only a mail from the account to itself has one. -/
def lookupKey (email : Text) (mail : Mail) : Option Text :=
  if Text.eqIgnoreAsciiCase mail.sender.address.toList email then
    mail.firstRecipient.bind fun recipient =>
      if Text.eqIgnoreAsciiCase recipient.address.toList email then
        some (selfSendCacheKey casing mail.subject.toList mail.sender.address.toList recipient.address.toList)
      else none
  else none

/-- `try_self_send_cache`. An entry past its time is dropped. -/
def trySelfSendCache (email : Text) (now : Nat) (mail : Mail)
    (cache : SelfSendCache) : Option (List (TutanotaFile × List UInt8)) × SelfSendCache :=
  match lookupKey casing email mail with
  | none => (none, cache)
  | some key =>
    let left := cache.dropExpired selfSendCacheTtl now key
    ((left.get? key).map fun entry => cachedFiles entry.value, left)

/-- The result of a load, and whether it is the cache that gave it. -/
structure Load where
  result : Except AttachmentError (List (TutanotaFile × List UInt8))
  fromCache : Bool
  cache : SelfSendCache

/-- `load_attachments_impl`. `download` is the load of the SDK. -/
def loadAttachmentsImpl (email : Text)
    (download : Mail → Except AttachmentError (List (TutanotaFile × List UInt8)))
    (now : Nat) (mail : Mail) (cache : SelfSendCache) : Load :=
  if mail.attachments = [] then ⟨.ok [], false, cache⟩
  else
    match trySelfSendCache casing email now mail cache with
    | (some cached, cache) =>
      if cached.length = mail.attachments.length then ⟨.ok cached, true, cache⟩
      else ⟨download mail, false, cache⟩
    | (none, cache) => ⟨download mail, false, cache⟩

/-! ## Histories -/

/-- What happens to the cache while the bridge runs. -/
inductive CacheEvent where
  | send (message : Submission) (now : Nat)
  | load (mail : Mail) (now : Nat)

/-- When an event reads the clock. -/
def CacheEvent.now : CacheEvent → Nat
  | .send _ now | .load _ now => now

/-- One event, with the order a send walks the map in. A load looks its mail up unless it has no attachments. -/
def CacheEvent.act (email : Text) (cache : SelfSendCache) :
    CacheEvent × SelfSendOrder → SelfSendCache
  | (.send message now, order) => sendMail casing email order now message cache
  | (.load mail now, _) => (loadAttachmentsImpl casing email (fun _ => .ok []) now mail cache).cache

/-- The cache after a history, from the empty one of a new session. -/
def cacheAfter (email : Text) (history : List (CacheEvent × SelfSendOrder)) : SelfSendCache :=
  history.foldl (CacheEvent.act casing email) Table.empty

/-- What an event stores. -/
def CacheEvent.stores (email : Text) :
    CacheEvent → Option (BoundedCache.Stored Text (List CachedAttachment))
  | .send message now =>
    if IsRemembered email message then
      some ⟨now, selfSendCacheKey casing message.subject message.fromAddress email, message.attachments⟩
    else none
  | .load _ _ => none

/-- What a history stores. -/
def stored (email : Text) (history : List CacheEvent) :
    List (BoundedCache.Stored Text (List CachedAttachment)) :=
  history.filterMap (CacheEvent.stores casing email)

variable {casing : Casing} {email : Text}

theorem stored_concat (history : List CacheEvent) (event : CacheEvent) : stored casing email (history ++ [event]) =
      stored casing email history ++ (event.stores casing email).toList := by
  rw [stored, List.filterMap_append, stored]
  cases isStored : event.stores casing email <;> simp [isStored]

/-! ## What the cache holds -/

theorem snd_trySelfSendCache (now : Nat) (mail : Mail) (cache : SelfSendCache) :
    (trySelfSendCache casing email now mail cache).2 = cache ∨
      ∃ key, (trySelfSendCache casing email now mail cache).2 = cache.dropExpired selfSendCacheTtl now key := by
  rw [trySelfSendCache]
  cases lookupKey casing email mail with
  | none => exact .inl rfl
  | some key => exact .inr ⟨key, rfl⟩

/-- A load leaves the cache as it was, or drops an entry past its time. -/
theorem cache_loadAttachmentsImpl (download : Mail → Except AttachmentError (List (TutanotaFile × List UInt8)))
    (now : Nat) (mail : Mail) (cache : SelfSendCache) :
    (loadAttachmentsImpl casing email download now mail cache).cache = cache ∨
      ∃ key, (loadAttachmentsImpl casing email download now mail cache).cache =
        cache.dropExpired selfSendCacheTtl now key := by
  have left := @snd_trySelfSendCache casing email now mail cache
  unfold loadAttachmentsImpl
  split
  next => exact .inl rfl
  next =>
    split
    next cached after found =>
      rw [found] at left
      split <;> exact left
    next after found =>
      rw [found] at left
      exact left

/-- The clock does not run back in a history that ends by now. -/
def Ordered (history : List CacheEvent) (now : Nat) : Prop :=
  (history.map CacheEvent.now ++ [now]).Pairwise (· ≤ ·)

theorem Ordered.of_concat {history : List CacheEvent} {event : CacheEvent} {now : Nat}
    (ordered : Ordered (history ++ [event]) now) : Ordered history event.now ∧ event.now ≤ now := by
  rw [Ordered, List.map_append, List.map_singleton] at ordered
  obtain ⟨before, -, after⟩ := List.pairwise_append.mp ordered
  exact ⟨before, after _ (List.mem_append_right _ (List.mem_singleton_self _)) now (List.mem_singleton_self now)⟩

/-- The cache keeps what a history stores, and where every walk ends at a key it favours the key. -/
theorem keeps_cacheAfter {history : List (CacheEvent × SelfSendOrder)} {now : Nat}
    (ordered : Ordered (history.map Prod.fst) now) :
    BoundedCache.Keeps selfSendCacheMaxEntries selfSendCacheTtl now (stored casing email (history.map Prod.fst))
        (cacheAfter casing email history) ∧
      ∀ key, (∀ step ∈ history, step.2 = BoundedCache.favouring key) →
        BoundedCache.Favours selfSendCacheMaxEntries selfSendCacheTtl now key
          (stored casing email (history.map Prod.fst)) (cacheAfter casing email history) := by
  induction history using List.reverseRecOn generalizing now with
  | nil => exact ⟨BoundedCache.keeps_nil _ _ _, fun _ _ _ isLast => by cases isLast⟩
  | append_singleton history step ih =>
    rw [List.map_append, List.map_singleton] at ordered
    obtain ⟨before, until'⟩ := ordered.of_concat
    obtain ⟨keeps, favours⟩ := ih before
    have act : cacheAfter casing email (history ++ [step]) =
        CacheEvent.act casing email (cacheAfter casing email history) step := by
      rw [cacheAfter, List.foldl_append]
      rfl
    rw [act, List.map_append, List.map_singleton, stored_concat]
    -- What the event does, at its own time.
    suffices kept : BoundedCache.Keeps selfSendCacheMaxEntries selfSendCacheTtl step.1.now _ _ ∧
        ∀ key, (∀ other ∈ history ++ [step], other.2 = BoundedCache.favouring key) →
          BoundedCache.Favours selfSendCacheMaxEntries selfSendCacheTtl step.1.now key _ _ from
      ⟨kept.1.later until', fun key all => (kept.2 key all).later until'⟩
    obtain ⟨event, order⟩ := step
    cases event with
    | send message sentAt =>
      simp only [CacheEvent.act, sendMail, CacheEvent.stores]
      by_cases remembered : IsRemembered email message
      · rw [if_pos remembered, if_pos remembered]
        refine ⟨keeps.remember (by decide) order _ _, fun key all => ?_⟩
        have isOrder : order = BoundedCache.favouring key := all _ (List.mem_append_right _ (List.mem_singleton_self _))
        rw [isOrder]
        exact (favours key fun other mem => all other (List.mem_append_left _ mem)).remember keeps (by decide) _ _
      · rw [if_neg remembered, if_neg remembered, Option.toList_none, List.append_nil]
        exact ⟨keeps, fun key all => favours key fun other mem => all other (List.mem_append_left _ mem)⟩
    | load mail loadedAt =>
      have others : ∀ key, (∀ other ∈ history ++ [(CacheEvent.load mail loadedAt, order)],
          other.2 = BoundedCache.favouring key) → _ :=
        fun key all => favours key fun other mem => all other (List.mem_append_left _ mem)
      simp only [CacheEvent.act, CacheEvent.stores, Option.toList_none, List.append_nil]
      obtain same | ⟨dropped, drops⟩ := @cache_loadAttachmentsImpl casing email (fun _ => .ok []) loadedAt mail
        (cacheAfter casing email history)
      · rw [same]
        exact ⟨keeps, others⟩
      · rw [drops]
        exact ⟨keeps.dropExpired dropped, fun key all => (others key all).dropExpired keeps dropped⟩

/-- Two lists of attachments that are served alike are the same. -/
theorem cachedFiles_injective : Function.Injective cachedFiles := by
  refine List.map_injective_iff.mpr fun left right same => ?_
  obtain ⟨leftName, leftType, leftData⟩ := left
  obtain ⟨rightName, rightType, rightData⟩ := right
  cases same
  rfl

variable {download : Mail → Except AttachmentError (List (TutanotaFile × List UInt8))} {now : Nat} {mail : Mail}
  {cache : SelfSendCache}

/-- What a cache serves a mail with: what it holds under the mail's key, in time and as many as the mail has. -/
structure Serves (casing : Casing) (email : Text) (cache : SelfSendCache) (now : Nat) (mail : Mail) (key : Text)
    (entry : Stamped (List CachedAttachment)) : Prop where
  filled : mail.attachments ≠ []
  found : lookupKey casing email mail = some key
  held : cache.get? key = some entry
  recent : now - entry.storedAt ≤ selfSendCacheTtl
  asMany : entry.value.length = mail.attachments.length

theorem held_of_trySelfSendCache {files : List (TutanotaFile × List UInt8)} {left : SelfSendCache}
    (answered : trySelfSendCache casing email now mail cache = (some files, left)) :
    ∃ key entry, lookupKey casing email mail = some key ∧ cache.get? key = some entry ∧
      now - entry.storedAt ≤ selfSendCacheTtl ∧ files = cachedFiles entry.value := by
  unfold trySelfSendCache at answered
  split at answered
  next => cases answered
  next key found =>
    obtain ⟨isFiles, -⟩ := Prod.mk.inj answered
    obtain ⟨entry, isLeft, rfl⟩ := Option.map_eq_some_iff.mp isFiles
    refine ⟨key, entry, found, BoundedCache.get?_of_dropExpired isLeft, ?_, rfl⟩
    by_contra expired
    rw [BoundedCache.dropExpired, BoundedCache.get?_of_dropExpired isLeft] at isLeft
    dsimp only at isLeft
    rw [if_pos (Nat.lt_of_not_le expired), Dict.get?_erase, if_pos rfl] at isLeft
    cases isLeft

/-- The cache answers a mail only with what it serves it with. -/
theorem serves_of_fromCache (answered : (loadAttachmentsImpl casing email download now mail cache).fromCache = true) :
    ∃ key entry, Serves casing email cache now mail key entry ∧
      (loadAttachmentsImpl casing email download now mail cache).result = .ok (cachedFiles entry.value) := by
  unfold loadAttachmentsImpl at answered ⊢
  split at answered
  next => cases answered
  next filled =>
    rw [if_neg filled]
    split at answered
    next files left tried =>
      split at answered
      next asMany =>
        obtain ⟨key, entry, found, held, recent, rfl⟩ := held_of_trySelfSendCache tried
        refine ⟨key, entry, ⟨filled, found, held, recent, ?_⟩, by rw [if_pos asMany]⟩
        rwa [cachedFiles, List.length_map] at asMany
      next => cases answered
    next => cases answered

/-- A mail is answered with what the cache serves it with. -/
theorem load_of_serves {key : Text} {entry : Stamped (List CachedAttachment)}
    (serves : Serves casing email cache now mail key entry) :
    loadAttachmentsImpl casing email download now mail cache = ⟨.ok (cachedFiles entry.value), true, cache⟩ := by
  have stays : cache.dropExpired selfSendCacheTtl now key = cache := by
    rw [BoundedCache.dropExpired, serves.held]
    exact if_neg (Nat.not_lt.mpr serves.recent)
  have tried : trySelfSendCache casing email now mail cache = (some (cachedFiles entry.value), cache) := by
    rw [trySelfSendCache, serves.found]
    dsimp only
    rw [stays, serves.held, Option.map_some]
  have asMany : (cachedFiles entry.value).length = mail.attachments.length := by
    rw [cachedFiles, List.length_map, serves.asMany]
  rw [loadAttachmentsImpl, if_neg serves.filled, tried]
  exact if_pos asMany

/-- Whatever submission a mail comes from, the cache answers it with the files of that submission, in their order
and however the map is walked, just when the self-send that was stored last under its key has the same attachments:
that is, where it has as many as the mail, is in time and was not followed by fifty others. -/
theorem answers_with_the_mails_own_files (casing : Casing) (email : Text)
    (download : Mail → Except AttachmentError (List (TutanotaFile × List UInt8)))
    (history : List CacheEvent) (now : Nat) (ordered : Ordered history now) (mail : Mail) (submission : Submission) :
    (∀ walked : List (CacheEvent × SelfSendOrder), walked.map Prod.fst = history →
        (loadAttachmentsImpl casing email download now mail (cacheAfter casing email walked)).fromCache = true →
          (loadAttachmentsImpl casing email download now mail (cacheAfter casing email walked)).result =
            .ok (cachedFiles submission.attachments)) ↔
      ∀ key last, mail.attachments ≠ [] → lookupKey casing email mail = some key →
        BoundedCache.lastStored key (stored casing email history) = some last → now - last.now ≤ selfSendCacheTtl →
        (BoundedCache.othersSince key (last.now + 1) (stored casing email history)).card < selfSendCacheMaxEntries →
        last.value.length = mail.attachments.length → last.value = submission.attachments := by
  constructor
  · intro own key last filled found isLast recent few asMany
    -- The walks that end at the key keep it.
    let walked : List (CacheEvent × SelfSendOrder) := history.map fun event => (event, BoundedCache.favouring key)
    have isHistory : walked.map Prod.fst = history := by
      rw [List.map_map]
      exact List.map_id _
    obtain ⟨keeps, favours⟩ := @keeps_cacheAfter casing email walked now (isHistory.symm ▸ ordered)
    rw [isHistory] at keeps favours
    have favoured := favours key fun step mem => by
      obtain ⟨event, -, rfl⟩ := List.mem_map.mp mem
      rfl
    cases held : (cacheAfter casing email walked).get? key with
    | none => exact absurd (favoured last isLast held recent) (Nat.not_le_of_lt few)
    | some entry =>
      have stampedAt := (keeps.latest key entry held).symm.trans isLast
      obtain rfl := Option.some.inj stampedAt
      have answered := @load_of_serves casing email download now mail _ key entry
        ⟨filled, found, held, recent, asMany⟩
      have result := own walked isHistory (by rw [answered])
      rw [answered] at result
      exact cachedFiles_injective (Except.ok.inj result)
  · intro same walked isHistory answered
    subst isHistory
    obtain ⟨keeps, -⟩ := @keeps_cacheAfter casing email walked now ordered
    obtain ⟨key, entry, serves, result⟩ := serves_of_fromCache answered
    rw [result, ← same key _ serves.filled serves.found (keeps.latest key entry serves.held) serves.recent
      (keeps.few_of_held serves.held serves.recent) serves.asMany]

/-- What the server makes of a submission, as far as the cache reads it. -/
structure Produces (email : Text) (submission : Submission) (mail : Mail) : Prop where
  subject : mail.subject.toList = submission.subject
  sender : mail.sender.address.toList = submission.fromAddress ∨ mail.sender.address.toList = email
  recipient : mail.firstRecipient.map (fun recipient => recipient.address.toList) =
    (submission.toAddresses ++ submission.ccAddresses ++ submission.bccAddresses).head?
  attachments : mail.attachments.length = submission.attachments.length

/-- A scan the account sends to itself, whose content is one byte. -/
def scan (content : UInt8) : Submission where
  fromAddress := "me@tuta.com".toList
  toAddresses := ["me@tuta.com".toList]
  ccAddresses := []
  bccAddresses := []
  subject := "Scan".toList
  attachments := [⟨"scan.pdf", "application/pdf", [content]⟩]

/-- The mail made of a scan. -/
def scanMail : Mail where
  id := some ⟨"inbox", "first"⟩
  subject := "Scan"
  sender := ⟨"Me", "me@tuta.com"⟩
  receivedDate := 0
  unread := true
  attachments := [⟨"files", "scan"⟩]
  firstRecipient := some ⟨"Me", "me@tuta.com"⟩

/-- Two scans sent one after the other: the mail of the first is answered with the second. -/
theorem second_scan_answers_for_the_first : ¬ ∀ (casing : Casing) (email : Text)
        (download : Mail → Except AttachmentError (List (TutanotaFile × List UInt8)))
        (history : List (CacheEvent × SelfSendOrder)) (now : Nat) (mail : Mail) (submission : Submission)
        (sentAt : Nat) (order : SelfSendOrder), (.send submission sentAt, order) ∈ history →
        Produces email submission mail →
        (loadAttachmentsImpl casing email download now mail (cacheAfter casing email history)).fromCache = true →
        (loadAttachmentsImpl casing email download now mail (cacheAfter casing email history)).result =
          .ok (cachedFiles submission.attachments) := by
  intro claim
  have own := claim .ascii "me@tuta.com".toList (fun _ => .ok [])
    [(.send (scan 1) 0, ⟨id, fun _ => .refl _⟩), (.send (scan 2) 1, ⟨id, fun _ => .refl _⟩)] 2 scanMail
    (scan 1) 0 ⟨id, fun _ => .refl _⟩ List.mem_cons_self
    ⟨rfl, .inl rfl, rfl, rfl⟩ (by decide)
  have other : [(⟨"scan.pdf", some "application/pdf", none⟩, [2])] = cachedFiles (scan 1).attachments :=
    Except.ok.inj own
  exact absurd other (by decide)

/-- A scan that is loaded before another is sent is answered with its own file. -/
theorem answers_with_the_mails_own_files_scan :
    (loadAttachmentsImpl .ascii "me@tuta.com".toList (fun _ => .ok []) 2 scanMail
      (cacheAfter .ascii "me@tuta.com".toList [(.send (scan 1) 0, ⟨id, fun _ => .refl _⟩),
        (.load scanMail 1, ⟨id, fun _ => .refl _⟩)])).result = .ok (cachedFiles (scan 1).attachments) := by
  refine (answers_with_the_mails_own_files .ascii "me@tuta.com".toList (fun _ => .ok [])
    [.send (scan 1) 0, .load scanMail 1] 2 (by unfold Ordered; decide) scanMail (scan 1)).mpr ?_ _ rfl
    (by decide +kernel)
  intro key last _ found isLast _ _ _
  have isKey : lookupKey .ascii "me@tuta.com".toList scanMail = some "scan|me@tuta.com|me@tuta.com".toList := by
    decide +kernel
  rw [isKey] at found
  obtain rfl := Option.some.inj found
  have stores : BoundedCache.lastStored "scan|me@tuta.com|me@tuta.com".toList
      (stored .ascii "me@tuta.com".toList [.send (scan 1) 0, .load scanMail 1]) =
        some ⟨0, "scan|me@tuta.com|me@tuta.com".toList, (scan 1).attachments⟩ := by
    decide +kernel
  rw [stores] at isLast
  rw [← Option.some.inj isLast]

end TutaBridge.Tuta
