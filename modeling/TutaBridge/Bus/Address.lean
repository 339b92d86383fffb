import TutaBridge.Std.FormUrl
import TutaBridge.Std.LineBlock
import TutaBridge.Tuta.MailSetEntryId

/-!
# The address of the event bus

The client asks for realtime events with one request, whose query carries the versions of the
model, who asks, and per group the last batch that was processed. Everything but the ids of
groups and batches is encoded, so the server reads back what the client holds.
-/

namespace TutaBridge.Bus

open TutaBridge.Std TutaBridge.Std.Text Tuta

variable {char : Char}

/-- `EventBusClient`, without what is shared with other tasks. -/
structure EventBusClient where
  baseUrl : Text
  sysModelVersion : Nat
  tutanotaModelVersion : Nat
  clientVersion : Text
  /-- Empty where the client has no name. -/
  clientName : Text

/-- `str::replacen` for one occurrence. -/
def replaceFirst (pattern replacement text : Text) : Text :=
  match before? pattern text with
  | some front => front ++ replacement ++ text.drop (front.length + pattern.length)
  | none => text

/-- `urlencode`. -/
def urlencode (text : Text) : Text := FormUrl.byteSerialize (Utf8.encode text)

/-- A group and its last batch, as they stand in the address. -/
def cursorText (id : Text × Text) : Text := id.1 ++ '=' :: (id.2 ++ [';'])

/-- `EventBusClient::build_path`. The last batch ids stand in the order in which the map is
walked. -/
def buildPath (client : EventBusClient) (accessToken userId : Text) (lastBatchIds : List (Text × Text)) :
    Text :=
  "/event?".toList ++ (FormUrl.pair "modelVersions".toList
        (decimal client.sysModelVersion ++ '.' :: decimal client.tutanotaModelVersion) ++
      '&' :: FormUrl.pair "clientVersion".toList (urlencode client.clientVersion) ++
      '&' :: FormUrl.pair "userId".toList (urlencode userId) ++
      '&' :: FormUrl.pair "accessToken".toList (urlencode accessToken) ++
      (if client.clientName = [] then []
        else '&' :: FormUrl.pair "clientName".toList (urlencode client.clientName)) ++
      if lastBatchIds = [] then []
      else '&' :: FormUrl.pair "groupsToLastEventBatchIds".toList (lastBatchIds.flatMap cursorText))

/-- The base of the address with the scheme of a web socket. -/
def socketBase (baseUrl : Text) : Text :=
  replaceFirst "http://".toList "ws://".toList
    (replaceFirst "https://".toList "wss://".toList (baseUrl.rdropWhile (· = '/')))

/-- `EventBusClient::build_ws_url`. -/
def buildWsUrl (client : EventBusClient) (accessToken userId : Text) (lastBatchIds : List (Text × Text)) :
    Text :=
  socketBase client.baseUrl ++ buildPath client accessToken userId lastBatchIds

/-! ## What a server reads -/

/-- What a request for events asks for. -/
structure Request where
  target : Text
  modelVersions : Text
  clientVersion : Text
  userId : Text
  accessToken : Text
  clientName : Option Text
  lastBatchIds : List (Text × Text)
deriving DecidableEq

/-- Groups and batches, each pair closed by a semicolon. -/
def readCursors (text : Text) : List (Text × Text) :=
  ((text.splitOn ';').filter (· ≠ [])).map fun piece => (splitOnce '=' piece).getD (piece, [])

/-- The request of an address: its query is a form. -/
def readRequest (address : Text) : Option Request := do
  let (target, query) ← splitOnce '?' address
  let form := FormUrl.parse query
  return {
    target
    modelVersions := ← form.lookup "modelVersions".toList
    clientVersion := ← form.lookup "clientVersion".toList
    userId := ← form.lookup "userId".toList
    accessToken := ← form.lookup "accessToken".toList
    clientName := form.lookup "clientName".toList
    lastBatchIds := readCursors ((form.lookup "groupsToLastEventBatchIds".toList).getD []) }

/-! ## The cursors -/

/-- An id in the alphabet of Tuta's ids. -/
def IsId (id : Text) : Prop := ∀ char ∈ id, char ∈ MailSetEntryId.base64Ext

instance (id : Text) : Decidable (IsId id) :=
  inferInstanceAs (Decidable (∀ char ∈ id, char ∈ MailSetEntryId.base64Ext))

theorem IsId.facts {id : Text} (isId : IsId id) (mem : char ∈ id) :
    char.toNat < 0x80 ∧ ∀ mark ∈ ['%', '+', '&', '=', ';'], char ≠ mark := by
  have table : ∀ char ∈ MailSetEntryId.base64Ext,
      char.toNat < 0x80 ∧ ∀ mark ∈ ['%', '+', '&', '=', ';'], char ≠ mark := by decide
  exact table char (isId char mem)

theorem IsId.not_mem {id : Text} (isId : IsId id) {mark : Char} (isMark : mark ∈ ['%', '+', '&', '=', ';']) :
    mark ∉ id := fun mem => (isId.facts mem).2 mark isMark rfl

variable {lastBatchIds : List (Text × Text)}

/-- Groups and batches are read back as they were written. -/
theorem readCursors_cursorText (areIds : ∀ id ∈ lastBatchIds, IsId id.1 ∧ IsId id.2) :
    readCursors (lastBatchIds.flatMap cursorText) = lastBatchIds := by
  have closed : lastBatchIds.flatMap cursorText =
      (lastBatchIds.map fun id => FormUrl.pair id.1 id.2).flatMap (· ++ [';']) := by
    rw [List.flatMap_map]
    exact List.flatMap_congr fun id _ => by simp [cursorText, FormUrl.pair]
  have noSemicolon : ∀ piece ∈ lastBatchIds.map fun id => FormUrl.pair id.1 id.2, ';' ∉ piece := by
    intro piece mem
    obtain ⟨id, isOne, rfl⟩ := List.mem_map.mp mem
    rw [FormUrl.pair, List.mem_append, List.mem_cons, not_or, not_or]
    exact ⟨(areIds id isOne).1.not_mem (by simp), by decide, (areIds id isOne).2.not_mem (by simp)⟩
  have notEmpty : ∀ piece ∈ lastBatchIds.map fun id => FormUrl.pair id.1 id.2, decide (piece ≠ []) := by
    intro piece mem
    obtain ⟨id, -, rfl⟩ := List.mem_map.mp mem
    exact decide_eq_true (FormUrl.pair_ne_nil _ _)
  rw [readCursors, closed, FormUrl.splitOn_closed noSemicolon, List.filter_append,
    List.filter_eq_self.mpr notEmpty]
  simp only [List.map_map, ne_eq, decide_not, List.filter_cons, decide_true,
    Bool.not_true, List.filter_nil, List.append_nil, Bool.false_eq_true, if_false]
  refine (List.map_congr_left fun id isOne => ?_).trans (List.map_id _)
  rw [Function.comp_apply, FormUrl.pair, splitOnce_append ((areIds id isOne).1.not_mem (by simp))]
  rfl

/-! ## The query -/

section Query

variable (client : EventBusClient) (accessToken userId : Text)

/-- The fields of the query: a name, what is written and what it stands for. -/
def queryFields (lastBatchIds : List (Text × Text)) : List (Text × Text × Text) :=
  let versions := decimal client.sysModelVersion ++ '.' :: decimal client.tutanotaModelVersion
  let cursors := lastBatchIds.flatMap cursorText
  [("modelVersions".toList, versions, versions),
    ("clientVersion".toList, urlencode client.clientVersion, client.clientVersion),
    ("userId".toList, urlencode userId, userId),
    ("accessToken".toList, urlencode accessToken, accessToken)] ++
  (if client.clientName = [] then []
    else [("clientName".toList, urlencode client.clientName, client.clientName)]) ++
  if lastBatchIds = [] then [] else [("groupsToLastEventBatchIds".toList, cursors, cursors)]

theorem buildPath_eq (lastBatchIds : List (Text × Text)) :
    buildPath client accessToken userId lastBatchIds = "/event".toList ++ '?' ::
      ['&'].intercalate ((queryFields client accessToken userId lastBatchIds).map
        fun field => FormUrl.pair field.1 field.2.1) := by
  have start : "/event?".toList = "/event".toList ++ ['?'] := rfl
  unfold buildPath queryFields
  simp only [start]
  split_ifs <;> simp

/-- The names of fields are words. -/
theorem name_facts {name : Text} (isName : name ∈ ["modelVersions".toList, "clientVersion".toList,
      "userId".toList, "accessToken".toList, "clientName".toList, "groupsToLastEventBatchIds".toList]) :
    ('=' ∉ name ∧ '&' ∉ name) ∧ ∀ char ∈ name, char.toNat < 0x80 ∧ char ≠ '%' ∧ char ≠ '+' := by
  have table : ∀ name ∈ ["modelVersions".toList, "clientVersion".toList, "userId".toList,
      "accessToken".toList, "clientName".toList, "groupsToLastEventBatchIds".toList],
      ('=' ∉ name ∧ '&' ∉ name) ∧ ∀ char ∈ name, char.toNat < 0x80 ∧ char ≠ '%' ∧ char ≠ '+' := by
    decide +kernel
  exact table name isName

theorem version_facts
    (mem : char ∈ decimal client.sysModelVersion ++ '.' :: decimal client.tutanotaModelVersion) :
    char.toNat < 0x80 ∧ ∀ mark ∈ ['%', '+', '&'], char ≠ mark := by
  have dot : ('.').toNat < 0x80 ∧ ∀ mark ∈ ['%', '+', '&'], '.' ≠ mark := by decide
  have digit : ∀ {value : Nat}, char ∈ decimal value →
      char.toNat < 0x80 ∧ ∀ mark ∈ ['%', '+', '&'], char ≠ mark := by
    intro value isOne
    have isDigit := isDigit_of_mem_decimal isOne
    refine ⟨ascii_of_isAlphanum (by simp [Char.isAlphanum, isDigit]), ?_⟩
    rintro mark isMark rfl
    have none : ∀ mark ∈ ['%', '+', '&'], mark.isDigit = false := by decide
    rw [none char isMark] at isDigit
    cases isDigit
  obtain first | rfl | second := (List.mem_append.trans (or_congr_right List.mem_cons)).mp mem
  · exact digit first
  · exact dot
  · exact digit second

theorem cursor_facts (areIds : ∀ id ∈ lastBatchIds, IsId id.1 ∧ IsId id.2)
    (mem : char ∈ lastBatchIds.flatMap cursorText) : char.toNat < 0x80 ∧ ∀ mark ∈ ['%', '+', '&'], char ≠ mark := by
  have marks : ∀ char ∈ ['=', ';'], char.toNat < 0x80 ∧ ∀ mark ∈ ['%', '+', '&'], char ≠ mark := by decide
  obtain ⟨id, isOne, written⟩ := List.mem_flatMap.mp mem
  have known : ∀ {text : Text}, IsId text → char ∈ text →
      char.toNat < 0x80 ∧ ∀ mark ∈ ['%', '+', '&'], char ≠ mark := fun isId inText =>
    ⟨(isId.facts inText).1, fun mark isMark => (isId.facts inText).2 mark (by
      simp only [List.mem_cons, List.not_mem_nil, or_false] at isMark ⊢
      tauto)⟩
  simp only [cursorText, List.mem_append, List.mem_cons, List.not_mem_nil, or_false] at written
  obtain inGroup | rfl | inBatch | rfl := written
  · exact known (areIds id isOne).1 inGroup
  · exact marks '=' (by simp)
  · exact known (areIds id isOne).2 inBatch
  · exact marks ';' (by simp)

/-- A field is written without separators and read as what it stands for. -/
theorem queryFields_facts (areIds : ∀ id ∈ lastBatchIds, IsId id.1 ∧ IsId id.2)
    {field : Text × Text × Text} (isField : field ∈ queryFields client accessToken userId lastBatchIds) :
    (('=' ∉ field.1 ∧ '&' ∉ field.1) ∧ '&' ∉ field.2.1) ∧
      FormUrl.decode field.1 = field.1 ∧ FormUrl.decode field.2.1 = field.2.2 := by
  have named : ∀ {name : Text}, name ∈ ["modelVersions".toList, "clientVersion".toList, "userId".toList,
      "accessToken".toList, "clientName".toList, "groupsToLastEventBatchIds".toList] →
      ('=' ∉ name ∧ '&' ∉ name) ∧ FormUrl.decode name = name := fun isName =>
    ⟨(name_facts isName).1, FormUrl.decode_plain (name_facts isName).2⟩
  have encoded : ∀ value : Text, '&' ∉ urlencode value ∧ FormUrl.decode (urlencode value) = value :=
    fun value => ⟨FormUrl.not_mem_byteSerialize (by simp), FormUrl.decode_byteSerialize value⟩
  have plain : ∀ {value : Text}, (∀ char ∈ value, char.toNat < 0x80 ∧ ∀ mark ∈ ['%', '+', '&'], char ≠ mark) →
        '&' ∉ value ∧ FormUrl.decode value = value := fun facts =>
    ⟨fun mem => (facts _ mem).2 '&' (by simp) rfl, FormUrl.decode_plain fun char mem =>
        ⟨(facts char mem).1, (facts char mem).2 '%' (by simp), (facts char mem).2 '+' (by simp)⟩⟩
  have written : ∀ {name value stands : Text}, ('=' ∉ name ∧ '&' ∉ name) ∧ FormUrl.decode name = name →
      '&' ∉ value ∧ FormUrl.decode value = stands →
      (('=' ∉ name ∧ '&' ∉ name) ∧ '&' ∉ value) ∧
        FormUrl.decode name = name ∧ FormUrl.decode value = stands :=
    fun isName isValue => ⟨⟨isName.1, isValue.1⟩, isName.2, isValue.2⟩
  obtain front | isCursors := List.mem_append.mp isField
  · obtain always | isName := List.mem_append.mp front
    · simp only [List.mem_cons, List.not_mem_nil, or_false] at always
      obtain rfl | rfl | rfl | rfl := always
      · exact written (named (by simp)) (plain fun char => version_facts client)
      · exact written (named (by simp)) (encoded _)
      · exact written (named (by simp)) (encoded _)
      · exact written (named (by simp)) (encoded _)
    · split_ifs at isName
      · cases isName
      · obtain rfl := List.mem_singleton.mp isName
        exact written (named (by simp)) (encoded _)
  · split_ifs at isCursors
    · cases isCursors
    · obtain rfl := List.mem_singleton.mp isCursors
      exact written (named (by simp)) (plain fun char => cursor_facts areIds)

theorem queryFields_ne_nil : queryFields client accessToken userId lastBatchIds ≠ [] :=
  List.append_ne_nil_of_left_ne_nil (List.append_ne_nil_of_left_ne_nil (List.cons_ne_nil _ _) _) _

/-- The server reads what the fields stand for. -/
theorem parse_query (areIds : ∀ id ∈ lastBatchIds, IsId id.1 ∧ IsId id.2) :
    FormUrl.parse (['&'].intercalate ((queryFields client accessToken userId lastBatchIds).map
        fun field => FormUrl.pair field.1 field.2.1)) =
      (queryFields client accessToken userId lastBatchIds).map fun field => (field.1, field.2.2) := by
  have facts := fun {field} => @queryFields_facts lastBatchIds client accessToken userId areIds field
  have asPairs : (queryFields client accessToken userId lastBatchIds).map
        (fun field => FormUrl.pair field.1 field.2.1) =
      ((queryFields client accessToken userId lastBatchIds).map fun field => (field.1, field.2.1)).map
        fun item => FormUrl.pair item.1 item.2 := by
    rw [List.map_map]
    rfl
  rw [asPairs, FormUrl.parse_intercalate, List.map_map]
  · refine List.map_congr_left fun field isField => ?_
    rw [Function.comp_apply, (facts isField).2.1, (facts isField).2.2]
  · exact mt List.map_eq_nil_iff.mp (queryFields_ne_nil client accessToken userId)
  · intro item mem
    obtain ⟨field, isField, rfl⟩ := List.mem_map.mp mem
    exact (facts isField).1.1
  · intro item mem
    obtain ⟨field, isField, rfl⟩ := List.mem_map.mp mem
    exact (facts isField).1.2

theorem lookup_queryFields :
    let form := (queryFields client accessToken userId lastBatchIds).map fun field => (field.1, field.2.2)
    (form.lookup "modelVersions".toList =
        some (decimal client.sysModelVersion ++ '.' :: decimal client.tutanotaModelVersion) ∧
      form.lookup "clientVersion".toList = some client.clientVersion ∧
      form.lookup "userId".toList = some userId ∧ form.lookup "accessToken".toList = some accessToken) ∧
      form.lookup "clientName".toList = (if client.clientName = [] then none else some client.clientName) ∧
      (form.lookup "groupsToLastEventBatchIds".toList).getD [] = lastBatchIds.flatMap cursorText := by
  unfold queryFields
  split_ifs with noName noCursors
  · subst noCursors
    simp [List.lookup_cons]
  · simp [List.lookup_cons]
  · rename_i noCursors
    subst noCursors
    simp [List.lookup_cons]
  · simp [List.lookup_cons]

end Query

/-! ## The address -/

/-- What is behind the first occurrence stays. -/
theorem replaceFirst_match (pattern replacement rest : Text) :
    replaceFirst pattern replacement (pattern ++ rest) = replacement ++ rest := by
  have found : before? pattern (pattern ++ rest) = some [] := by
    cases pattern with
    | nil => cases rest <;> simp [before?]
    | cons head tail => simp [before?]
  rw [replaceFirst, found]
  simp

/-- A beginning that shares no character with the pattern stays. -/
theorem prefix_replaceFirst {first : Char} {pattern replacement start rest : Text} (absent : first ∉ start) :
    start <+: replaceFirst (first :: pattern) replacement (start ++ rest) := by
  rw [replaceFirst, before?_append absent]
  cases before? (first :: pattern) rest with
  | none => exact List.prefix_append start rest
  | some front =>
    simp only [Option.map_some, List.append_assoc]
    exact List.prefix_append start _

theorem mem_of_mem_replaceFirst {pattern replacement text : Text}
    (mem : char ∈ replaceFirst pattern replacement text) : char ∈ replacement ∨ char ∈ text := by
  rw [replaceFirst] at mem
  split at mem
  case h_1 front found =>
      obtain ⟨rest, rfl⟩ := prefix_of_before? found
      obtain isFront | isBehind := List.mem_append.mp mem
      · obtain inFront | inNew := List.mem_append.mp isFront
        · exact .inr (by simp [inFront])
        · exact .inl inNew
      · exact .inr (List.mem_of_mem_drop isBehind)
  case h_2 => exact .inr mem

theorem mem_of_mem_socketBase {baseUrl : Text} (mem : char ∈ socketBase baseUrl) :
    char ∈ "ws://".toList ∨ char ∈ "wss://".toList ∨ char ∈ baseUrl :=
  (mem_of_mem_replaceFirst mem).imp_right fun inner =>
    (mem_of_mem_replaceFirst inner).imp_right fun inBase => (List.rdropWhile_prefix _ _).subset inBase

/-- An address over TLS stays one. -/
theorem socketBase_https {baseUrl : Text} (overTls : "https://".toList <+: baseUrl.rdropWhile (· = '/')) :
    "wss://".toList <+: socketBase baseUrl := by
  obtain ⟨host, isBase⟩ := overTls
  rw [socketBase, ← isBase, replaceFirst_match]
  exact prefix_replaceFirst (by decide)

/-- The request a client makes with the cursors it holds. -/
def requestOf (client : EventBusClient) (accessToken userId : Text) (lastBatchIds : List (Text × Text)) :
    Request where
  target := socketBase client.baseUrl ++ "/event".toList
  modelVersions := decimal client.sysModelVersion ++ '.' :: decimal client.tutanotaModelVersion
  clientVersion := client.clientVersion
  userId := userId
  accessToken := accessToken
  clientName := if client.clientName = [] then none else some client.clientName
  lastBatchIds := lastBatchIds

/-- The server reads from the address what the client holds: who asks, the versions, and for each
group the batch to go on from. An address over TLS stays one. -/
theorem readRequest_buildWsUrl (client : EventBusClient) (accessToken userId : Text)
    (noQuery : '?' ∉ client.baseUrl) (areIds : ∀ id ∈ lastBatchIds, IsId id.1 ∧ IsId id.2) :
    readRequest (buildWsUrl client accessToken userId lastBatchIds) =
        some (requestOf client accessToken userId lastBatchIds) ∧
      ("https://".toList <+: client.baseUrl.rdropWhile (· = '/') →
        "wss://".toList <+: buildWsUrl client accessToken userId lastBatchIds) := by
  have noMark : '?' ∉ socketBase client.baseUrl ++ "/event".toList := by
    intro mem
    obtain inBase | inPath := List.mem_append.mp mem
    · obtain plain | secure | inUrl := mem_of_mem_socketBase inBase
      · exact absurd plain (by decide)
      · exact absurd secure (by decide)
      · exact noQuery inUrl
    · exact absurd inPath (by decide)
  have split : splitOnce '?' (buildWsUrl client accessToken userId lastBatchIds) =
      some (socketBase client.baseUrl ++ "/event".toList,
        ['&'].intercalate ((queryFields client accessToken userId lastBatchIds).map
          fun field => FormUrl.pair field.1 field.2.1)) := by
    rw [buildWsUrl, buildPath_eq, ← List.append_assoc]
    exact splitOnce_append noMark
  obtain ⟨⟨versions, version, user, token⟩, name, cursors⟩ :=
    @lookup_queryFields lastBatchIds client accessToken userId
  refine ⟨?_, fun overTls => (socketBase_https overTls).trans (List.prefix_append _ _)⟩
  rw [readRequest, split, Option.bind_eq_bind, Option.bind_some]
  simp only [parse_query client accessToken userId areIds, versions, version, user, token, name, cursors,
    readCursors_cursorText areIds, Option.bind_eq_bind, Option.bind_some]
  rfl

end TutaBridge.Bus
