import Mathlib.Algebra.Group.Nat.Defs
import Mathlib.Data.List.Basic

/-!
# JSON values

The values of a JSON document and the accessors of `serde_json::Value`. How a document is
written as text is left to a `Format`: what is said about documents here does not depend
on it.
-/

namespace TutaBridge.Std

/-- `serde_json::Number`, with a float by its text. -/
inductive Number where
  | posInt (value : Nat)
  | negInt (magnitude : Nat)
  | float (text : String)

/-- `serde_json::Value`. -/
inductive Json where
  | null
  | bool (value : Bool)
  | number (value : Number)
  | string (value : String)
  | array (items : List Json)
  | object (fields : List (String × Json))

namespace Json

/-- `Value::get` by a key. -/
def get (key : String) : Json → Option Json
  | .object fields => fields.lookup key
  | _ => none

/-- `value[key]`, null where there is no such field. -/
def index (value : Json) (key : String) : Json := (value.get key).getD .null

/-- `Value::as_str`. -/
def asStr : Json → Option String
  | .string value => some value
  | _ => none

/-- `Value::as_u64`. -/
def asU64 : Json → Option Nat
  | .number (.posInt value) => some value
  | _ => none

/-- `Value::as_i64`. -/
def asI64 : Json → Option Int
  | .number (.posInt value) => if value < 2 ^ 63 then some value else none
  | .number (.negInt magnitude) => if magnitude ≤ 2 ^ 63 then some (-magnitude) else none
  | _ => none

/-- `Value::as_array`. -/
def asArray : Json → Option (List Json)
  | .array items => some items
  | _ => none

/-- `value[key] = item` on an object. -/
def set (value : Json) (key : String) (item : Json) : Json :=
  match value with
  | .object fields => .object (fields.filter (·.1 != key) ++ [(key, item)])
  | other => other

/-- How documents are read and written. -/
structure Format where
  fromSlice : List UInt8 → Option Json
  toString : Json → String
  toStringPretty : Json → Option String

end Json

end TutaBridge.Std
