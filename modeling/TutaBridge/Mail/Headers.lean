import TutaBridge.Std.Text

/-!
# The headers of a message

The header section of a message is unfolded into names and values, and message ids are read
from them.
-/

namespace TutaBridge.Mail

open TutaBridge.Std

/-- `header_section`: everything before the first blank line, the whole message if there
is none. -/
def headerSection (raw : Text) : Text :=
  ((Text.before? ['\r', '\n', '\r', '\n'] raw).or (Text.before? ['\n', '\n'] raw)).getD raw

/-- The variables of `parse_headers`: the headers done, and the one being read. -/
structure HeaderReader where
  headers : List (Text × Text)
  currentName : Text
  currentValue : Text
deriving DecidableEq, Repr

namespace HeaderReader

/-- The headers with the one being read. -/
def finish (casing : Casing) (reader : HeaderReader) : List (Text × Text) :=
  if reader.currentName = [] then reader.headers
  else
    reader.headers ++ [(casing.toLowercase reader.currentName, Text.trim reader.currentValue)]

/-- The loop body of `parse_headers`. -/
def line (casing : Casing) (reader : HeaderReader) (line : Text) : HeaderReader :=
  if line.head? = some ' ' ∨ line.head? = some '\t' then
    { reader with currentValue := reader.currentValue ++ ' ' :: Text.trim line }
  else
    match Text.splitOnce ':' line with
    | some (name, value) => ⟨reader.finish casing, Text.trim name, value⟩
    | none => reader

end HeaderReader

/-- `parse_headers`. -/
def parseHeaders (casing : Casing) (headerText : Text) : List (Text × Text) :=
  ((Text.lines headerText).foldl (HeaderReader.line casing) ⟨[], [], []⟩).finish casing

/-- `get_header`. -/
def getHeader (headers : List (Text × Text)) (name : String) : Option Text :=
  (headers.find? fun header => header.1 = name.toList).map Prod.snd

/-! ## Message ids -/

/-- The loop of `msg_ids`, with what was read behind an opening bracket. -/
def msgIdsFrom : (opened : Option Text) → Text → List Text
  | _, [] => []
  | none, char :: rest => msgIdsFrom (if char = '<' then some [] else none) rest
  | some id, char :: rest =>
    if char = '>' then
      if Text.trim id = [] then msgIdsFrom none rest else Text.trim id :: msgIdsFrom none rest
    else msgIdsFrom (some (id ++ [char])) rest

/-- `msg_ids`: the ids in brackets, or the bare value. -/
def msgIds (raw : Text) : List Text :=
  let ids := msgIdsFrom none raw
  if ids = [] then if Text.trim raw = [] then [] else [Text.trim raw] else ids

end TutaBridge.Mail
