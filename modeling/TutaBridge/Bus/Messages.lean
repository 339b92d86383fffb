import Mathlib.Data.List.Forall2
import TutaBridge.Std.Acting
import TutaBridge.Std.Json
import TutaBridge.Std.Text
import TutaBridge.Tuta.Entities

/-!
# Messages of the event bus

A frame is the kind of a message, a semicolon and its payload. A batch of entity updates is a
JSON document whose keys are the numbers of attributes; the server writes numbers as strings,
and the client takes either. A batch is read as a whole or refused.
-/

namespace TutaBridge.Bus

open TutaBridge.Std TutaBridge.Std.Text Tuta

variable {batch : EntityUpdateBatch}

/-- `EventBusError`. -/
inductive EventBusError where
  | authenticationRejected (code : Nat)
  | invalidMessage (text : String)
  | stopped
deriving DecidableEq, Repr

/-- What the parsers of JSON and of numbers answer, with the texts of their errors. -/
structure Decoder where
  fromStr : Text → Except String Json
  intError : Text → String

/-! ## Attributes -/

namespace Attr

def batchId : String := "1485"
def batchOwner : String := "1486"
def entityUpdates : String := "1487"
def application : String := "464"
def instanceListId : String := "466"
def instanceId : String := "467"
def operation : String := "624"
def typeId : String := "2556"
def inlined : String := "2617"
def blobInstance : String := "2701"

end Attr

/-- `Operation::from_code`. -/
def Operation.fromCode (code : Int) : Operation :=
  if code = 0 then .create
  else if code = 1 then .update
  else if code = 2 then .delete
  else .other code

/-! ## Parsing -/

/-- `take_string`. -/
def takeString (value : Json) (key : String) : Except EventBusError String :=
  match (value.get key).bind Json.asStr with
  | some text => .ok text
  | none => .error (.invalidMessage ("missing or non-string field " ++ key))

section Parsing

variable (decoder : Decoder)

/-- `take_string_or_int`. -/
def takeStringOrInt (value : Json) (key : String) : Except EventBusError Int :=
  match value.get key with
  | some (.string text) =>
    match parseSigned 64 text.toList with
    | some number => .ok number
    | none => .error (.invalidMessage (key ++ ": " ++ decoder.intError text.toList))
  | some (.number number) =>
    match Json.asI64 (.number number) with
    | some number => .ok number
    | none => .error (.invalidMessage (key ++ ": not an i64"))
  | _ => .error (.invalidMessage ("missing numeric field " ++ key))

/-- `parse_json`. -/
def parseJson (value kind : Text) : Except EventBusError Json :=
  match decoder.fromStr value with
  | .ok document => .ok document
  | .error reason => .error (.invalidMessage (String.ofList kind ++ ": " ++ reason))

/-- `parse_entity_update_event`. -/
def parseEntityUpdateEvent (value : Json) : Except EventBusError EntityUpdateEvent := do
  let application ← takeString value Attr.application
  let typeId ← takeStringOrInt decoder value Attr.typeId
  let instanceId ← takeString value Attr.instanceId
  let code ← takeStringOrInt decoder value Attr.operation
  return {
    application
    typeId
    instanceListId := ((value.get Attr.instanceListId).bind Json.asStr).getD ""
    instanceId
    operation := Operation.fromCode code
    inlined := (value.get Attr.inlined).bind Json.asStr
    blobInstance := (value.get Attr.blobInstance).bind Json.asStr }

/-- `parse_entity_update_batch`. -/
def parseEntityUpdateBatch (value : Text) : Except EventBusError EntityUpdateBatch := do
  let document ← parseJson decoder value "entityUpdate".toList
  let batchId ← takeString document Attr.batchId
  let groupId ← takeString document Attr.batchOwner
  match (document.get Attr.entityUpdates).bind Json.asArray with
  | none => .error (.invalidMessage "entityUpdate: missing entityUpdates")
  | some items =>
    let updates ← items.mapM (parseEntityUpdateEvent decoder)
    return { batchId, groupId, updates }

/-- `parse_message`. The raw payload of the other kinds is not kept. -/
def parseMessage (text : Text) : Except EventBusError EventBusMessage :=
  let (kind, value) := (splitOnce ';' text).getD (text, [])
  if kind = "entityUpdate".toList then (parseEntityUpdateBatch decoder value).map .entityUpdate
  else if kind = "unreadCounterUpdate".toList then
    (parseJson decoder value kind).map fun _ => .counterUpdate
  else if kind = "leaderStatus".toList then (parseJson decoder value kind).map fun _ => .leaderStatus
  else if kind = "operationStatusUpdate".toList then
    (parseJson decoder value kind).map fun _ => .operationStatusUpdate
  else if kind = "initialSyncDone".toList then .ok .initialSyncDone
  else if kind = "initialSyncWorkEstimate".toList then
    .ok (.initialSyncWorkEstimate ((parseUnsigned 64 (trim value)).getD 0))
  else if kind = "phishingMarkers".toList then
    (parseJson decoder value kind).map fun _ => .phishingMarkers
  else .ok (.unknown (String.ofList kind) (String.ofList value))

end Parsing

/-! ## The documents of batches -/

/-- The field is a number, as a number or as its numeral. -/
def IsNumber (value : Json) (key : String) (number : Int) : Prop :=
  (∃ text : String, value.get key = some (.string text) ∧ parseSigned 64 text.toList = some number) ∨
    ∃ written, value.get key = some (.number written) ∧ Json.asI64 (.number written) = some number

/-- The document of an update. It may have other fields, and its fields any order. -/
structure IsUpdate (value : Json) (update : EntityUpdateEvent) : Prop where
  application : value.get Attr.application = some (.string update.application)
  typeId : IsNumber value Attr.typeId update.typeId
  instanceListId : ((value.get Attr.instanceListId).bind Json.asStr).getD "" = update.instanceListId
  instanceId : value.get Attr.instanceId = some (.string update.instanceId)
  operation : ∃ code, IsNumber value Attr.operation code ∧ Operation.fromCode code = update.operation
  inlined : (value.get Attr.inlined).bind Json.asStr = update.inlined
  blobInstance : (value.get Attr.blobInstance).bind Json.asStr = update.blobInstance

/-- The document of a batch. -/
structure IsBatch (value : Json) (batch : EntityUpdateBatch) : Prop where
  batchId : value.get Attr.batchId = some (.string batch.batchId)
  groupId : value.get Attr.batchOwner = some (.string batch.groupId)
  updates : ∃ items, value.get Attr.entityUpdates = some (.array items) ∧
    List.Forall₂ IsUpdate items batch.updates

/-- A number as it is sent. -/
def numeral (value : Int) : Text :=
  if 0 ≤ value then decimal value.toNat else '-' :: decimal value.natAbs

/-- The code of an operation. -/
def Operation.code : Tuta.Operation → Int
  | .create => 0
  | .update => 1
  | .delete => 2
  | .other code => code

/-- A field that may be absent. -/
def optional : Option String → Json
  | some text => .string text
  | none => .null

/-- The document of an update, with its numbers as strings. -/
def writtenUpdate (update : EntityUpdateEvent) : Json :=
  .object [(Attr.application, .string update.application),
    (Attr.instanceListId, .string update.instanceListId), (Attr.instanceId, .string update.instanceId),
    (Attr.operation, .string (String.ofList (numeral (Operation.code update.operation)))),
    (Attr.typeId, .string (String.ofList (numeral update.typeId))),
    (Attr.inlined, optional update.inlined), (Attr.blobInstance, optional update.blobInstance)]

/-- The document of a batch. -/
def writtenBatch (batch : EntityUpdateBatch) : Json :=
  .object [(Attr.batchId, .string batch.batchId), (Attr.batchOwner, .string batch.groupId),
    (Attr.entityUpdates, .array (batch.updates.map writtenUpdate))]

/-! ## What is read -/

theorem takeString_eq_ok_iff {value : Json} {key text : String} :
    takeString value key = .ok text ↔ value.get key = some (.string text) := by
  rw [takeString]
  cases value.get key with
  | none => simp
  | some field => cases field <;> simp [Json.asStr]

section Reading

variable {decoder : Decoder}

theorem takeStringOrInt_eq_ok_iff {value : Json} {key : String} {number : Int} :
    takeStringOrInt decoder value key = .ok number ↔ IsNumber value key number := by
  rw [takeStringOrInt, IsNumber]
  cases value.get key with
  | none => simp
  | some field =>
    cases field with
    | string text =>
      cases parsed : parseSigned 64 text.toList <;> simp [parsed]
    | number written =>
      cases read : Json.asI64 (.number written) <;> simp [read]
    | null => simp
    | bool => simp
    | array => simp
    | object => simp

theorem parseEntityUpdateEvent_eq_ok_iff {value : Json} {update : EntityUpdateEvent} :
    parseEntityUpdateEvent decoder value = .ok update ↔ IsUpdate value update := by
  simp only [parseEntityUpdateEvent, except_bind_eq_ok_iff, takeString_eq_ok_iff, takeStringOrInt_eq_ok_iff]
  constructor
  · rintro ⟨application, isApplication, typeId, isType, instanceId, isInstance, code, isCode, same⟩
    cases same
    exact ⟨isApplication, isType, rfl, isInstance, ⟨code, isCode, rfl⟩, rfl, rfl⟩
  · rintro ⟨isApplication, isType, isList, isInstance, ⟨code, isCode, isOperation⟩, isInlined, isBlob⟩
    refine ⟨_, isApplication, _, isType, _, isInstance, code, isCode, ?_⟩
    rw [isList, isOperation, isInlined, isBlob]
    rfl

theorem parseJson_eq_ok_iff {value kind : Text} {document : Json} :
    parseJson decoder value kind = .ok document ↔ decoder.fromStr value = .ok document := by
  rw [parseJson]
  cases decoder.fromStr value <;> simp

theorem parseEntityUpdateBatch_eq_ok_iff {value : Text} : parseEntityUpdateBatch decoder value = .ok batch ↔
      ∃ document, decoder.fromStr value = .ok document ∧ IsBatch document batch := by
  simp only [parseEntityUpdateBatch, except_bind_eq_ok_iff, takeString_eq_ok_iff, parseJson_eq_ok_iff]
  refine exists_congr fun document => and_congr_right fun _ => ?_
  constructor
  · rintro ⟨batchId, isBatch, groupId, isGroup, read⟩
    cases isItems : (document.get Attr.entityUpdates).bind Json.asArray with
    | none =>
      rw [isItems] at read
      cases read
    | some items =>
      rw [isItems] at read
      obtain ⟨updates, areUpdates, same⟩ := except_bind_eq_ok_iff.mp read
      cases same
      obtain ⟨field, isField, isArray⟩ := Option.bind_eq_some_iff.mp isItems
      refine ⟨isBatch, isGroup, items, ?_, ?_⟩
      · cases field <;> cases isArray
        exact isField
      · exact (except_mapM_eq_ok_iff.mp areUpdates).imp fun _ _ => parseEntityUpdateEvent_eq_ok_iff.mp
  · rintro ⟨isBatch, isGroup, items, isItems, areUpdates⟩
    refine ⟨_, isBatch, _, isGroup, ?_⟩
    rw [isItems]
    have read := areUpdates.imp fun _ _ => (@parseEntityUpdateEvent_eq_ok_iff decoder _ _).mpr
    exact except_bind_eq_ok_iff.mpr ⟨_, except_mapM_eq_ok_iff.mpr read, rfl⟩

/-! ## Frames -/

/-- The frame in which a payload of the kind is sent. -/
def frameOf (kind : String) (payload : Text) : Text := kind.toList ++ ';' :: payload

/-- Every other kind of message is read without the batch parser. -/
theorem parseMessage_entityUpdate {kind value : Text} {text : Text}
    (parts : (splitOnce ';' text).getD (text, []) = (kind, value)) :
    parseMessage decoder text = .ok (.entityUpdate batch) ↔
      kind = "entityUpdate".toList ∧ parseEntityUpdateBatch decoder value = .ok batch := by
  rw [parseMessage, parts]
  by_cases isUpdate : kind = "entityUpdate".toList
  · subst isUpdate
    simp [except_map_eq_ok_iff]
  · simp only [isUpdate, if_false, false_and, iff_false]
    intro read
    split_ifs at read <;> simp_all [except_map_eq_ok_iff]

/-- A frame is read as a batch exactly where its payload is the document of that batch. -/
theorem parseMessage_frame_iff {payload : Text} :
    parseMessage decoder (frameOf "entityUpdate" payload) = .ok (.entityUpdate batch) ↔
      ∃ document, decoder.fromStr payload = .ok document ∧ IsBatch document batch := by
  rw [← parseEntityUpdateBatch_eq_ok_iff]
  have parts : (splitOnce ';' (frameOf "entityUpdate" payload)).getD (frameOf "entityUpdate" payload, []) =
      ("entityUpdate".toList, payload) := by
    rw [frameOf, splitOnce_append (by decide)]
    rfl
  rw [parseMessage_entityUpdate parts]
  simp

end Reading

end TutaBridge.Bus
