import TutaBridge.Sync.FolderFacts

/-!
# The listing of a folder

`load_mail_ids_for_folder` reads the entries of a folder, groups the mails they
refer to by mail list, and loads each group with a request of its own. A request
that fails is logged and its group left out. The SDK's entity client is a
parameter: its answers may differ from one listing to the next, and one listing
asks for each mail list once.
-/

namespace TutaBridge.Sync

open TutaBridge.Std Tuta Store Bridge

variable (client : EntityClient)

variable {entries : List ListedEntry}

/-- A `MailSetEntry` as a listing reads it: with its own element id, which pages
are continued from. -/
structure ListedEntry extends MailSetEntry where
  elementId : Option String
deriving DecidableEq, Repr

/-- The calls of `CryptoEntityClient` a listing makes, by the tick of the listing,
and the text of an error. Entries come newest first. -/
structure EntityClient where
  loadAll : Nat → String → Except ApiCallError (List ListedEntry)
  loadRange : Nat → String → String → Nat → Except ApiCallError (List ListedEntry)
  loadMultiple : Nat → String → List String → Except ApiCallError (List Mail)
  errorText : ApiCallError → String

/-- `SERVER_PAGE`. -/
def serverPage : Nat := 1000

/-- The pages of a listing with a limit over `serverPage`. A page that does not
end the loop has an entry, so `limit` rounds are enough. -/
def loadPages (client : EntityClient) (tick : Nat) (entriesListId : String) (limit : Nat) :
    (rounds : Nat) → List ListedEntry → String → Except ApiCallError (List ListedEntry)
  | 0, out, _ => .ok out
  | rounds + 1, out, start =>
    if out.length < limit then
      let want := min (limit - out.length) serverPage
      match client.loadRange tick entriesListId start want with
      | .error error => .error error
      | .ok page =>
        if page.isEmpty then .ok out
        else if page.length < want then .ok (out ++ page)
        else
          match page.getLast?.bind ListedEntry.elementId with
          | none => .ok (out ++ page)
          | some next => loadPages client tick entriesListId limit rounds (out ++ page) next
    else .ok out

/-- The entries of a folder, all of them when `limit` is 0. -/
def loadEntries (tick : Nat) (entriesListId : String) (limit : Nat) :
    Except ApiCallError (List ListedEntry) :=
  if limit = 0 then client.loadAll tick entriesListId
  else if limit ≤ serverPage then client.loadRange tick entriesListId "" limit
  else loadPages client tick entriesListId limit limit [] ""

/-- `by_list`: the element ids to load from each mail list. -/
def byList (entries : List ListedEntry) : Dict String (List String) :=
  Dict.groupInto (fun entry => entry.mail.listId) (fun entry => entry.mail.elementId) .empty entries

/-- The mails of one group, none when the request fails. -/
def loadGroup (tick : Nat) (entries : List ListedEntry) (listId : String) :
    List Mail :=
  match client.loadMultiple tick listId (((byList entries).get? listId).getD []) with
  | .ok batch => batch
  | .error _ => []

/-- `load_mail_ids_for_folder_impl`. -/
def loadMailIdsForFolderImpl (hashOrder : List String → List String)
    (tick : Nat) (entriesListId : String) (limit : Nat) : Except ApiCallError (List Mail) :=
  match loadEntries client tick entriesListId limit with
  | .error error => .error error
  | .ok entries => .ok ((hashOrder (byList entries).keys).flatMap (loadGroup client tick entries))

/-- `load_mail_ids_for_folder`. -/
def loadMailIdsForFolder (hashOrder : List String → List String)
    (tick : Nat) (folder : FolderInfo) (limit : Nat) : Except String (List Mail) :=
  (loadMailIdsForFolderImpl client hashOrder tick folder.entriesListId limit).mapError client.errorText

/-- The bridge with its listings made by the entity client. `sync_folder` asks
for every entry. -/
def listingEnv (env : Env) (client : EntityClient) : Env :=
  { env with
    backend :=
      { env.backend with
        loadMailIdsForFolder := fun tick folder =>
          loadMailIdsForFolder client (env.hashOrder tick) tick folder 0 } }

/-! ## The groups -/

/-- The element ids requested from a mail list. -/
def requestedIds (entries : List ListedEntry) (listId : String) : List String :=
  (entries.filter fun entry => entry.mail.listId = listId).map fun entry => entry.mail.elementId

theorem get?_byList (entries : List ListedEntry) (listId : String) :
    ((byList entries).get? listId).getD [] = requestedIds entries listId := by
  simpa [byList, requestedIds] using Dict.get?_groupInto _ _ Table.empty entries listId

theorem mem_keys_byList {listId : String} :
    listId ∈ (byList entries).keys ↔ ∃ entry ∈ entries, entry.mail.listId = listId := by
  rw [byList, Dict.mem_keys_groupInto]
  simp [Dict.keys, Table.empty]

theorem mem_requestedIds {listId elementId : String} :
    elementId ∈ requestedIds entries listId ↔ ∃ entry ∈ entries, entry.mail = ⟨listId, elementId⟩ := by
  simp only [requestedIds, List.mem_map, List.mem_filter, decide_eq_true_eq]
  constructor
  · rintro ⟨entry, ⟨mem, rfl⟩, rfl⟩
    exact ⟨entry, mem, rfl⟩
  · rintro ⟨entry, mem, same⟩
    exact ⟨entry, ⟨mem, by rw [same]⟩, by rw [same]⟩

/-- A listing has the mails of the groups that were loaded, whatever order the
hash map is iterated in. -/
theorem mem_loadMailIdsForFolder_iff {client : EntityClient}
    {hashOrder : List String → List String} (isPerm : ∀ keys, (hashOrder keys).Perm keys)
    {tick : Nat} {folder : FolderInfo} {limit : Nat} {mails : List Mail}
    (loaded : loadEntries client tick folder.entriesListId limit = .ok entries)
    (answered : loadMailIdsForFolder client hashOrder tick folder limit = .ok mails) (mail : Mail) :
    mail ∈ mails ↔ ∃ entry ∈ entries, ∃ batch,
      client.loadMultiple tick entry.mail.listId (requestedIds entries entry.mail.listId) =
        .ok batch ∧ mail ∈ batch := by
  have mailsEq : (hashOrder (byList entries).keys).flatMap (loadGroup client tick entries) =
      mails := by
    simpa [loadMailIdsForFolder, loadMailIdsForFolderImpl, loaded, Except.mapError] using answered
  rw [← mailsEq, List.mem_flatMap]
  constructor
  · rintro ⟨listId, isKey, inGroup⟩
    obtain ⟨entry, mem, rfl⟩ := mem_keys_byList.mp ((isPerm _).mem_iff.mp isKey)
    simp only [loadGroup, get?_byList] at inGroup
    split at inGroup
    next batch answer => exact ⟨entry, mem, batch, answer, inGroup⟩
    next => simp at inGroup
  · rintro ⟨entry, mem, batch, answer, inBatch⟩
    refine ⟨entry.mail.listId, (isPerm _).mem_iff.mpr (mem_keys_byList.mpr ⟨entry, mem, rfl⟩), ?_⟩
    simp only [loadGroup, get?_byList, answer]
    exact inBatch

/-! ## What the server has -/

/-- The entries of every folder, by their list, and the mails that exist. A mail
carries its own id. -/
structure MailServer where
  entries : String → List ListedEntry
  mails : IdTuple → Option Mail
  mails_id : ∀ ref mail, mails ref = some mail → mail.id = some ref

/-- A request that succeeds answers with what the server has: `load_all` with
every entry of the list, `load_multiple` with those of the requested elements that
exist. -/
structure EntityClient.Serves (client : EntityClient) (server : MailServer) : Prop where
  loadAll : ∀ tick listId entries, client.loadAll tick listId = .ok entries → entries = server.entries listId
  loadMultiple : ∀ tick listId ids batch, client.loadMultiple tick listId ids = .ok batch →
    ∀ mail, mail ∈ batch ↔ ∃ id ∈ ids, server.mails ⟨listId, id⟩ = some mail

/-- A mail of the folder that still exists. -/
def MailServer.InFolder (server : MailServer) (folder : FolderInfo) (mail : Mail) : Prop :=
  ∃ entry ∈ server.entries folder.entriesListId, server.mails entry.mail = some mail

/-- In the listing made at `tick`, no request fails for a mail list that has an
existing mail of the folder. -/
def ListsLoad (server : MailServer) (folder : FolderInfo) (tick : Nat) : Prop :=
  ∀ entry ∈ server.entries folder.entriesListId, (server.mails entry.mail).isSome →
    (client.loadMultiple tick entry.mail.listId
      (requestedIds (server.entries folder.entriesListId) entry.mail.listId)).isOk

theorem exists_ok_of_isOk {ε α : Type} {result : Except ε α} (isOk : result.isOk) : ∃ value, result = .ok value := by
  cases result with
  | error => cases isOk
  | ok value => exact ⟨value, rfl⟩

section Complete

variable {client : EntityClient} {server : MailServer} {tick : Nat} {folder : FolderInfo}
  {hashOrder : List String → List String} {mails : List Mail}

/-- A listing without a limit that returned has read all entries. -/
theorem loadEntries_of_ok (serves : client.Serves server)
    (answered : loadMailIdsForFolder client hashOrder tick folder 0 = .ok mails) :
    loadEntries client tick folder.entriesListId 0 = .ok (server.entries folder.entriesListId) := by
  have all : loadEntries client tick folder.entriesListId 0 =
      client.loadAll tick folder.entriesListId := if_pos rfl
  cases loaded : client.loadAll tick folder.entriesListId with
  | error error =>
    simp [loadMailIdsForFolder, loadMailIdsForFolderImpl, all, loaded, Except.mapError] at answered
  | ok entries => rw [all, loaded, serves.loadAll _ _ _ loaded]

section

variable (serves : client.Serves server) (isPerm : ∀ keys, (hashOrder keys).Perm keys)
    (answered : loadMailIdsForFolder client hashOrder tick folder 0 = .ok mails)

include serves isPerm answered

/-- What is listed is in the folder and exists. -/
theorem inFolder_of_listed {mail : Mail} (listed : mail ∈ mails) : server.InFolder folder mail := by
  obtain ⟨entry, _, batch, answer, inBatch⟩ :=
    (mem_loadMailIdsForFolder_iff isPerm (loadEntries_of_ok serves answered) answered mail).mp listed
  obtain ⟨id, requested, exist⟩ := (serves.loadMultiple _ _ _ _ answer mail).mp inBatch
  obtain ⟨source, mem, same⟩ := mem_requestedIds.mp requested
  exact ⟨source, mem, same ▸ exist⟩

/-- A listing that returned has every existing mail of the folder exactly when no
group with an existing mail failed to load. -/
theorem listing_complete_iff :
    (∀ mail, server.InFolder folder mail → mail ∈ mails) ↔ ListsLoad client server folder tick := by
  have listed := mem_loadMailIdsForFolder_iff isPerm (loadEntries_of_ok serves answered) answered
  constructor
  · intro complete entry mem exist
    obtain ⟨mail, found⟩ := Option.isSome_iff_exists.mp exist
    obtain ⟨other, _, batch, answer, inBatch⟩ :=
      (listed mail).mp (complete mail ⟨entry, mem, found⟩)
    -- The mail carries its own id, so the batch it came in is that of its own list.
    obtain ⟨id, _, loaded⟩ := (serves.loadMultiple _ _ _ _ answer mail).mp inBatch
    have sameList : entry.mail = ⟨other.mail.listId, id⟩ := by
      have own := server.mails_id _ _ found
      rw [server.mails_id _ _ loaded] at own
      exact (Option.some.inj own).symm
    rw [sameList, answer]
    rfl
  · rintro load mail ⟨entry, mem, found⟩
    obtain ⟨batch, answer⟩ := exists_ok_of_isOk (load entry mem (by rw [found]; rfl))
    refine (listed mail).mpr ⟨entry, mem, batch, answer, ?_⟩
    rw [serves.loadMultiple _ _ _ _ answer mail]
    exact ⟨entry.mail.elementId, mem_requestedIds.mpr ⟨entry, mem, rfl⟩, found⟩

end

end Complete

end TutaBridge.Sync
