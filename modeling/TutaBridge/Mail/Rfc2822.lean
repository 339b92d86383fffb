import TutaBridge.Std.Base64
import TutaBridge.Std.Utf8
import TutaBridge.Tuta.Entities

/-!
# Addresses and dates in a message

How `rfc2822.rs` writes an address and a date. A display name goes bare, quoted or as an
encoded word; an address is stripped of what would delimit a mailbox.
-/

namespace TutaBridge.Mail

open TutaBridge.Std Tuta

/-- `is_rfc5322_special`. -/
def isRfc5322Special (char : Char) : Bool := "()<>[]:;@\\,.\"".toList.any (· = char)

/-- `str::is_ascii`. -/
def isAscii (text : Text) : Bool := text.all fun char => char.toNat < 128

/-- Whether a text has a carriage return or a line feed. -/
def hasBreak (text : Text) : Bool := text.any fun char => char = '\r' ∨ char = '\n'

/-- `needs_quoting`. -/
def needsQuoting (name : Text) : Bool :=
  isAscii name && !hasBreak name && name.any isRfc5322Special

/-- `encode_header_value`. -/
def encodeHeaderValue (text : Text) : Text :=
  if isAscii text && !hasBreak text then text
  else
    "=?UTF-8?B?".toList ++ (Base64.encodePadded Base64.standard (Utf8.encode text)).toList ++ "?=".toList

/-- The characters an address is emitted without. -/
def delimitsMailbox (char : Char) : Bool :=
  Text.isWhitespace char || "<>,;\"()".toList.any (· = char)

/-- `format_name_and_address`. -/
def formatNameAndAddress (name address : Text) : Text :=
  let address := address.filter fun char => !delimitsMailbox char
  if name = [] then address
  else if needsQuoting name then
    let escaped := (name.flatMap fun char => if char = '\\' then ['\\', '\\'] else [char]).flatMap
      fun char => if char = '"' then ['\\', '"'] else [char]
    '"' :: (escaped ++ '"' :: ' ' :: '<' :: (address ++ ['>']))
  else encodeHeaderValue name ++ ' ' :: '<' :: (address ++ ['>'])

/-- `format_address`. -/
def formatAddress (address : MailAddress) : Text :=
  formatNameAndAddress address.name.toList address.address.toList

/-- `days_to_ymd`. -/
def daysToYmd (days : Nat) : Nat × Nat × Nat :=
  let shifted := days + 719468
  let era := shifted / 146097
  let dayOfEra := shifted - era * 146097
  let yearOfEra :=
    (dayOfEra - dayOfEra / 1460 + dayOfEra / 36524 - dayOfEra / 146096) / 365
  let year := yearOfEra + era * 400
  let dayOfYear := dayOfEra - (365 * yearOfEra + yearOfEra / 4 - yearOfEra / 100)
  let march := (5 * dayOfYear + 2) / 153
  let day := dayOfYear - (153 * march + 2) / 5 + 1
  let month := if march < 10 then march + 3 else march - 9
  (if month ≤ 2 then year + 1 else year, month, day)

def weekdays : List String := ["Sun", "Mon", "Tue", "Wed", "Thu", "Fri", "Sat"]

def months : List String :=
  ["Jan", "Feb", "Mar", "Apr", "May", "Jun", "Jul", "Aug", "Sep", "Oct", "Nov", "Dec"]

/-- `format_rfc2822_date`. -/
def formatRfc2822Date (millis : Nat) : Text :=
  let secs := millis / 1000
  let days := secs / 86400
  let timeOfDay := secs % 86400
  let (year, month, day) := daysToYmd days
  (weekdays.getD ((days + 4) % 7) "").toList ++ ", ".toList ++ Text.padded 2 day ++
    ' ' :: ((months.getD (min (month - 1) 11) "").toList ++ ' ' :: (Text.padded 4 year ++
      ' ' :: (Text.padded 2 (timeOfDay / 3600) ++ ':' :: (Text.padded 2 (timeOfDay % 3600 / 60) ++
        ':' :: (Text.padded 2 (timeOfDay % 60) ++ " +0000".toList)))))

example : formatRfc2822Date 1709210096000 = "Thu, 29 Feb 2024 12:34:56 +0000".toList := by decide

example : formatNameAndAddress "Doe, Jane".toList "jane@tuta.com".toList =
    "\"Doe, Jane\" <jane@tuta.com>".toList := by decide

end TutaBridge.Mail
