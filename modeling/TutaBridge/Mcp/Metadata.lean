import TutaBridge.Events.Handler
import TutaBridge.Mcp.Server

/-!
# The metadata tier

In the metadata tier a response is a function of the folder list and of the `Mail` entities
in the folders: bodies, the files on the disk, the index and the server are not looked at.
The one thing a response may depend on besides is the order in which the map of folders is
walked, when the mail asked for is in several of them.
-/

namespace TutaBridge.Mcp

open TutaBridge.Std Tuta Store Bridge TutaBridge.Mail
  TutaBridge.Imap TutaBridge.Events

/-- Two worlds whose folders show the same mails. Everything else may differ. -/
structure SameMetadata (world world' : World) : Prop where
  folderList : world.store.folderList = world'.store.folderList
  mails : ∀ folderId, (world.store.getFolder folderId).map StoredMail.mail =
    (world'.store.getFolder folderId).map StoredMail.mail

/-- A mail in a folder with nothing known but the entity. -/
def bare (mail : Mail) : StoredMail := ⟨mail, false, 0, false⟩

/-- A hit with nothing known but the entity and what was found. -/
def bareHit {α : Type} (hit : StoredMail × α) : StoredMail × α := (bare hit.1.mail, hit.2)

variable {world world' : World}

theorem SameMetadata.bare_mails (same : SameMetadata world world') (folderId : String) :
    (world.store.getFolder folderId).map (fun stored => bare stored.mail) =
      (world'.store.getFolder folderId).map fun stored => bare stored.mail := by
  have entities := congrArg (List.map bare) (same.mails folderId)
  rw [List.map_map, List.map_map] at entities
  exact entities

theorem SameMetadata.folder_length (same : SameMetadata world world') (folderId : String) :
    (world.store.getFolder folderId).length = (world'.store.getFolder folderId).length := by
  have lengths := congrArg List.length (same.mails folderId)
  rw [List.length_map, List.length_map] at lengths
  exact lengths

/-! ## Lists of hits -/

/-- Two lists of hits that show the same mails, and the same beside them. -/
def SameHits {α : Type} (hits hits' : List (StoredMail × α)) : Prop :=
  hits.map bareHit = hits'.map bareHit

namespace SameHits

variable {α β : Type} {hits hits' : List (StoredMail × α)}

section

variable (same : SameHits hits hits')

include same

theorem length : hits.length = hits'.length := by
  have lengths := congrArg List.length same
  rw [List.length_map, List.length_map] at lengths
  exact lengths

theorem filter (keep : StoredMail × α → Bool)
    (ignores : ∀ hit, keep (bareHit hit) = keep hit) : SameHits (hits.filter keep) (hits'.filter keep) := by
  have bared : ∀ list : List (StoredMail × α),
      (list.filter keep).map bareHit = (list.map bareHit).filter keep := by
    intro list
    have kept : keep ∘ bareHit = keep := funext ignores
    rw [List.filter_map, kept]
  rw [SameHits, bared, bared, same]

theorem tag (found : StoredMail × α → β) (ignores : ∀ hit, found (bareHit hit) = found hit) :
    SameHits (hits.map fun hit => (hit.1, found hit)) (hits'.map fun hit => (hit.1, found hit)) := by
  have bared : ∀ list : List (StoredMail × α), (list.map fun hit => (hit.1, found hit)).map bareHit =
        (list.map bareHit).map fun hit => (hit.1, found hit) := by
    intro list
    rw [List.map_map, List.map_map]
    refine List.map_congr_left fun hit _ => ?_
    exact Prod.ext rfl (ignores hit).symm
  rw [SameHits, bared, bared, same]

/-- The date that hits are sorted by is the entity's. -/
theorem newestFirst : SameHits (newestFirst (fun hit => hit.1.mail) hits)
      (newestFirst (fun hit => hit.1.mail) hits') := by
  have bared : ∀ list : List (StoredMail × α), (Mcp.newestFirst (fun hit => hit.1.mail) list).map bareHit =
        Mcp.newestFirst (fun hit => hit.1.mail) (list.map bareHit) :=
    fun list => List.map_insertionSort _ _ _ _ fun _ _ _ _ => Iff.rfl
  rw [SameHits, bared, bared, same]

theorem documents (document : StoredMail × α → Json)
    (ignores : ∀ hit, document (bareHit hit) = document hit) (limit : Nat) :
    (hits.take limit).map document = (hits'.take limit).map document := by
  have bared : ∀ list : List (StoredMail × α),
      (list.take limit).map document = ((list.map bareHit).take limit).map document := by
    intro list
    rw [← List.map_take, List.map_map]
    exact List.map_congr_left fun hit _ => (ignores hit).symm
  rw [bared hits, bared hits', same]

end

end SameHits

theorem SameMetadata.listed (same : SameMetadata world world') (folderFilter : Option String) :
    SameHits (listed folderFilter world) (Mcp.listed folderFilter world') := by
  have folder : ∀ info : FolderInfo,
      ((world.store.getFolder info.id).map fun stored => (stored, info.imapPath)).map bareHit =
        ((world'.store.getFolder info.id).map fun stored => (stored, info.imapPath)).map bareHit := by
    intro info
    have entities := congrArg (List.map fun stored => (stored, info.imapPath)) (same.bare_mails info.id)
    rw [List.map_map, List.map_map] at entities ⊢
    exact entities
  rw [SameHits, Mcp.listed, Mcp.listed, List.map_flatMap, List.map_flatMap, same.folderList]
  exact congrArg (List.flatMap · _) (funext folder)

/-! ## Tools -/

variable {env env' : Env} {format : Json.Format} {casing : Casing} {server server' : McpServer}

theorem toolListFolders_eq (same : SameMetadata world world') :
    toolListFolders format world = toolListFolders format world' := by
  simp only [toolListFolders, same.folderList, same.folder_length]

theorem toolListUnread_eq (same : SameMetadata world world') (args : Json) :
    toolListUnread format args world = toolListUnread format args world' := by
  have hits := same.listed ((args.get "folder").bind Json.asStr)
  have sorted := (hits.filter (fun hit => hit.1.mail.unread) fun _ => rfl).newestFirst
  have results := sorted.documents (fun hit => mailMetadata hit.1 hit.2) (fun _ => rfl)
    (clampLimit (args.get "limit"))
  simp only [toolListUnread, results, sorted.length]

theorem findBodyHits_metadata (tier : server.permission = .metadata) (query : String) :
    findBodyHits env server query world = ([], world) := by
  have withheld : server.permission.allowsBody = false := by rw [tier]; rfl
  rw [findBodyHits, if_neg (by rw [withheld]; exact Bool.false_ne_true)]

theorem toolSearchMessages_eq (same : SameMetadata world world')
    (tier : server.permission = .metadata) (tier' : server'.permission = .metadata) (args : Json) :
    (toolSearchMessages env format casing server args world).1 =
      (toolSearchMessages env' format casing server' args world').1 := by
  unfold toolSearchMessages
  split
  next => rfl
  next query _ =>
    have hits := same.listed ((args.get "folder").bind Json.asStr)
    have tagged := hits.tag (fun hit => (hit.2, matchedIn casing (casing.toLowercase query.toList) [] hit.1))
      fun _ => rfl
    have sorted := (tagged.filter (fun hit => hit.2.2 ≠ []) fun _ => rfl).newestFirst
    have results := sorted.documents (fun hit => (mailMetadata hit.1 hit.2.1).set "matched_in"
        (.array (hit.2.2.map .string))) (fun _ => rfl) (clampLimit (args.get "limit"))
    simp only [findBodyHits_metadata tier, findBodyHits_metadata tier', tier, tier']
    rw [results, sorted.length]

/-! ## A message by its id -/

/-- What a search through some of the folders finds of a mail, with nothing known but the
entity. -/
def found (world : World) (id folderId : String) : Option (String × StoredMail) :=
  (world.store.mailInFolder folderId id).map fun stored => (folderId, bare stored.mail)

/-- Whether the copies of a mail that two walks find first are in one folder: the maps are
walked alike, or no two folders have the mail. -/
def FoundAlike (env env' : Env) (world world' : World) (id : String) : Prop :=
  env.hashOrder world.tick world.store.folders.keys = env'.hashOrder world'.tick world'.store.folders.keys ∨
    ∀ folderId other, (world.store.mailInFolder folderId id).isSome →
      (world.store.mailInFolder other id).isSome → folderId = other

theorem SameMetadata.found_eq (same : SameMetadata world world') (id folderId : String) :
    found world id folderId = found world' id folderId := by
  have bared : ∀ world : World, (world.store.mailInFolder folderId id).map (fun stored => bare stored.mail) =
        ((world.store.getFolder folderId).map fun stored => bare stored.mail).find? fun stored =>
          stored.elementId = some id := by
    intro world
    rw [List.find?_map]
    rfl
  have entities := congrArg (Option.map fun stored => (folderId, stored))
    ((bared world).trans ((congrArg _ (same.bare_mails folderId)).trans (bared world').symm))
  rw [Option.map_map, Option.map_map] at entities
  exact entities

theorem isSome_found {id folderId : String} :
    (found world id folderId).isSome = (world.store.mailInFolder folderId id).isSome :=
  Option.isSome_map

/-- A folder that has a mail is one of the map's. -/
theorem mem_keys_of_found {id folderId : String} (has : (found world id folderId).isSome = true) :
    folderId ∈ world.store.folders.keys := by
  rw [isSome_found, MailStore.mailInFolder, MailStore.getFolder] at has
  rw [Dict.mem_keys_iff]
  cases stored : world.store.folders.get? folderId with
  | none =>
    rw [stored] at has
    cases has
  | some mails => rfl

theorem findMail_bare (id : String) : (findMail env id world).map (fun hit => (hit.1, bare hit.2.mail)) =
      (env.hashOrder world.tick world.store.folders.keys).findSome? (found world id) := by
  rw [findMail, MailStore.findMailAnywhere, List.map_findSome?]
  refine congrArg (List.findSome? · _) (funext fun folderId => ?_)
  rw [Function.comp_apply, Option.map_map]
  rfl

/-- A search that can find in one place only finds the same in any order. -/
theorem findSome?_eq_of_unique {α β : Type} {search : α → Option β} {first second : List α}
    (unique : ∀ a b, (search a).isSome → (search b).isSome → a = b)
    (inFirst : ∀ a, (search a).isSome → a ∈ first) (inSecond : ∀ a, (search a).isSome → a ∈ second) :
    first.findSome? search = second.findSome? search := by
  cases hit : first.findSome? search with
  | none =>
    refine (List.findSome?_eq_none_iff.mpr fun a _ => ?_).symm
    by_contra found
    have has := Option.isSome_iff_ne_none.mpr found
    exact found (List.findSome?_eq_none_iff.mp hit a (inFirst a has))
  | some value =>
    obtain ⟨a, -, finds⟩ := List.exists_of_findSome?_eq_some hit
    have has : (search a).isSome := by rw [finds]; rfl
    cases other : second.findSome? search with
    | none =>
      have missing := List.findSome?_eq_none_iff.mp other a (inSecond a has)
      rw [finds] at missing
      cases missing
    | some value' =>
      obtain ⟨b, -, finds'⟩ := List.exists_of_findSome?_eq_some other
      have sameKey := unique a b has (by rw [finds']; rfl)
      rw [← sameKey, finds] at finds'
      exact finds'

theorem SameMetadata.findMail_eq (same : SameMetadata world world') {id : String}
    (alike : FoundAlike env env' world world' id) :
    (findMail env id world).map (fun hit => (hit.1, bare hit.2.mail)) =
      (findMail env' id world').map fun hit => (hit.1, bare hit.2.mail) := by
  have search : found world id = found world' id := funext (same.found_eq id)
  rw [findMail_bare, findMail_bare, ← search]
  obtain walks | single := alike
  · rw [walks]
  · refine findSome?_eq_of_unique ?_ ?_ ?_
    · intro folderId other has has'
      rw [isSome_found] at has has'
      exact single folderId other has has'
    · intro folderId has
      exact (env.hashOrder_perm _ _).mem_iff.mpr (mem_keys_of_found has)
    · intro folderId has
      rw [search] at has
      exact (env'.hashOrder_perm _ _).mem_iff.mpr (mem_keys_of_found has)

theorem toolGetMessage_eq (same : SameMetadata world world')
    (tier : server.permission = .metadata) (tier' : server'.permission = .metadata) {args : Json}
    (alike : ∀ id, (args.get "id").bind Json.asStr = some id → FoundAlike env env' world world' id) :
    (toolGetMessage env format server args world).1 = (toolGetMessage env' format server' args world').1 := by
  have withheld : server.permission.allowsBody = false := by rw [tier]; rfl
  have withheld' : server'.permission.allowsBody = false := by rw [tier']; rfl
  have paths : ∀ folderId, pathOf world folderId = pathOf world' folderId := by
    intro folderId
    rw [pathOf, pathOf, same.folderList]
  unfold toolGetMessage
  split
  next => rfl
  next id asked =>
    have finds := same.findMail_eq (alike id asked)
    cases first : findMail env id world with
    | none =>
      rw [first, Option.map_none] at finds
      rw [Option.map_eq_none_iff.mp finds.symm]
    | some hit =>
      rw [first, Option.map_some] at finds
      obtain ⟨hit', isHit', sameHit⟩ := Option.map_eq_some_iff.mp finds.symm
      obtain ⟨sameFolder, sameMail⟩ := Prod.mk.inj sameHit
      have headers : mailMetadata hit.2 (pathOf world hit.1) =
          mailMetadata hit'.2 (pathOf world' hit'.1) := by
        have bared := congrArg (mailMetadata · (pathOf world hit.1)) sameMail
        rw [← paths, sameFolder]
        exact bared.symm
      rw [isHit']
      simp only [withheld, withheld', headers]
      rfl

/-! ## Requests -/

/-- The id a call of `get_message` names. -/
def calledId (params : Json) : Option String :=
  if (params.get "name").bind Json.asStr = some "get_message" then
    (((params.get "arguments").getD .null).get "id").bind Json.asStr
  else none

theorem callTool_eq (same : SameMetadata world world')
    (tier : server.permission = .metadata) (tier' : server'.permission = .metadata) {params : Json}
    (alike : ∀ id, calledId params = some id → FoundAlike env env' world world' id) :
    (callTool env format casing server params world).1 = (callTool env' format casing server' params world').1 := by
  unfold callTool
  split
  next => rfl
  next name named =>
    dsimp only
    split
    next => rw [toolListFolders_eq same]
    next =>
      split
      next => exact congrArg (fun text => Except.ok (toolResult text)) (toolSearchMessages_eq same tier tier' _)
      next =>
        split
        next => rw [toolListUnread_eq same]
        next =>
          split
          next isGet =>
            have called : calledId params = (((params.get "arguments").getD .null).get "id").bind Json.asStr :=
              if_pos (named.trans (congrArg some isGet))
            rw [called] at alike
            exact congrArg (fun text => Except.ok (toolResult text)) (toolGetMessage_eq same tier tier' alike)
          next => rfl

theorem dispatch_eq (same : SameMetadata world world') {searchBody : LocalStore → String → List String}
    (tier : server.permission = .metadata) (method : String) {params : Json}
    (alike : method = "tools/call" → ∀ id, calledId params = some id → FoundAlike env env' world world' id) :
    (dispatch env format casing server method params world).1 =
      (dispatch env' format casing { server with searchBody := searchBody } method params world').1 := by
  have tier' : ({ server with searchBody := searchBody } : McpServer).permission = .metadata := tier
  unfold dispatch
  split
  next => rfl
  next =>
    split
    next => rfl
    next =>
      split
      next => rfl
      next =>
        split
        next isCall => exact callTool_eq same tier tier' (alike isCall)
        next => rfl

/-- The id that a call of `get_message` names in a request. -/
def askedId (format : Json.Format) (request : Request) : Option String :=
  (format.fromSlice request.body).bind fun message =>
    if ((message.get "method").bind Json.asStr).getD "" = "tools/call" then
      calledId ((message.get "params").getD .null)
    else none

/-- In the metadata tier, two servers whose folders show the same mails give the same
response, whatever bodies, files, index and server they have, if the copies of the mail
asked for that they find first are in one folder. -/
theorem metadata_tier_shows_no_body {searchBody : LocalStore → String → List String}
    {request : Request} (tier : server.permission = .metadata) (same : SameMetadata world world')
    (alike : ∀ id, askedId format request = some id → FoundAlike env env' world world' id) :
    (handlePost env format casing server request world).1 =
      (handlePost env' format casing { server with searchBody := searchBody } request world').1 := by
  unfold handlePost
  split
  next => rfl
  next =>
    split
    next => rfl
    next =>
      split
      next => rfl
      next message parsed =>
        split
        next => rfl
        next id _ =>
          dsimp only
          rw [dispatch_eq same tier]
          intro isCall asked isAsked
          refine alike asked ?_
          rw [askedId, parsed, Option.bind_some, if_pos isCall]
          exact isAsked

/-! ## One mail in two folders -/

/-- A number, a truth value or a text that needs no escape. -/
def writeScalar : Json → String
  | .bool value => if value then "true" else "false"
  | .number (.posInt value) => String.ofList (Text.decimal value)
  | .string value => "\"" ++ value ++ "\""
  | _ => "null"

/-- An object of such values by its sorted keys. -/
def writeFlat (opening colon comma closing : String) : Json → String
  | .object fields =>
    let sorted := fields.insertionSort fun left right => (compare left.1 right.1).isLE
    opening ++ comma.intercalate (sorted.map fun field =>
      "\"" ++ field.1 ++ "\"" ++ colon ++ writeScalar field.2) ++ closing
  | value => writeScalar value

/-- A request for the message `m`. -/
def messageRequest : Request where
  origin := none
  authorization := none
  body := Utf8.encode ("\x7b\"id\":1,\"method\":\"tools/call\",\"params\":\x7b\"name\":\"get_message\"," ++
    "\"arguments\":\x7b\"id\":\"m\"\x7d\x7d\x7d").toList

/-- A format that reads that request and writes what answers it. -/
def sampleFormat : Json.Format where
  fromSlice body :=
    if body = messageRequest.body then
      some (.object [("id", ofNat 1), ("method", .string "tools/call"),
          ("params", .object [("name", .string "get_message"), ("arguments", .object [("id", .string "m")])])])
    else none
  toString := writeFlat "\x7b" ":" "," "\x7d"
  toStringPretty value := some (writeFlat "\x7b\n  " ": " ",\n  " "\n\x7d" value)

/-- A server in the metadata tier whose index matches nothing. -/
def sampleServer : McpServer := ⟨none, .metadata, "0.1.0-dev", fun _ _ => []⟩

/-- A world with one mail. -/
def listedOnce (bodyLoaded : Bool) : World :=
  sampleWorld [sampleFolder "a" "A"] [("a", [{ sampleStored "m" 1 with bodyLoaded := bodyLoaded }])]

/-- The same mail with its body in memory. -/
def withBody : World :=
  (listedOnce true).mapStore fun store =>
    { store with bodies := store.bodies.insert "m" ⟨none, "secret"⟩ }

theorem sameMetadata_withBody : SameMetadata (listedOnce false) withBody := by
  refine ⟨rfl, fun folderId => ?_⟩
  by_cases listed : folderId = "a"
  · subst listed
    rfl
  · have empty : ∀ bodyLoaded, (listedOnce bodyLoaded).store.getFolder folderId = [] := by
      intro bodyLoaded
      have absent : (listedOnce bodyLoaded).store.folders.get? folderId = none :=
        (Dict.get?_set .empty "a" folderId _).trans (if_neg listed)
      rw [MailStore.getFolder, absent]
      rfl
    exact congrArg _ ((empty false).trans (empty true).symm)

/-- The body in memory, and an index that has it, do not show. -/
theorem body_in_memory_does_not_show :
    (handlePost (quietEnv (offlineBackend [])) sampleFormat .ascii sampleServer messageRequest
        (listedOnce false)).1 =
      (handlePost (quietEnv (offlineBackend [])) sampleFormat .ascii
        { sampleServer with searchBody := fun _ _ => ["m"] } messageRequest withBody).1 :=
  metadata_tier_shows_no_body rfl sameMetadata_withBody fun _ _ => .inl rfl

/-- A world whose two folders have the same mail. -/
def twiceListed : World :=
  sampleWorld [sampleFolder "a" "A", sampleFolder "b" "B"]
    [("a", [sampleStored "m" 1]), ("b", [sampleStored "m" 1])]

/-- The map of folders walked from its end. -/
def backwards (env : Env) : Env :=
  { env with
    hashOrder := fun _ keys => keys.reverse
    hashOrder_perm := fun _ keys => keys.reverse_perm }

/-- The text a response has for a tool's result. -/
def Response.content : Response → Option String
  | .json document =>
    match ((document.index "result").get "content") with
    | some (.array [item]) => (item.get "text").bind Json.asStr
    | _ => none
  | _ => none

/-- A mail in two folders is shown in the one that comes first where the map is walked. -/
theorem mail_in_two_folders_shows_the_walk :
    ¬ ∀ (env env' : Env) (format : Json.Format) (casing : Casing) (server : McpServer)
        (searchBody : LocalStore → String → List String) (request : Request) (world world' : World),
        server.permission = .metadata → SameMetadata world world' →
        (handlePost env format casing server request world).1 =
          (handlePost env' format casing { server with searchBody := searchBody } request world').1 := by
  intro claim
  have same := claim (quietEnv (offlineBackend [])) (backwards (quietEnv (offlineBackend [])))
    sampleFormat .ascii sampleServer (fun _ _ => []) messageRequest twiceListed twiceListed rfl
    ⟨rfl, fun _ => rfl⟩
  exact absurd (congrArg Response.content same) (by decide +kernel)

end TutaBridge.Mcp
