import TutaBridge.Mcp.Metadata
import TutaBridge.Std.Digits
import TutaBridge.Std.Utf16

/-!
# The origin guard

`handle_post` turns away a request by its Origin before it looks at anything else. What is meant
to pass is an origin of the machine itself: http or https, the host 127.0.0.1 or localhost, and
at most a port. The guard tests how the header begins, so it says nothing of what stands behind
the host; and a header that is not visible ASCII is taken for one that was not sent.
-/

namespace TutaBridge.Mcp

open TutaBridge.Std TutaBridge.Std.Text Bridge TutaBridge.Mail Events

/-! ## Headers -/

/-- A `HeaderMap`: names in lower case, values in bytes. -/
abbrev HeaderMap := List (String × List UInt8)

/-- `HeaderMap::get`. -/
def HeaderMap.get (headers : HeaderMap) (name : String) : Option (List UInt8) :=
  (headers.find? fun header => header.1 = name).map Prod.snd

/-- The bytes that `to_str` takes. -/
def isVisibleAscii (byte : UInt8) : Bool := (32 ≤ byte && byte < 127) || byte = 9

/-- `HeaderValue::to_str`. -/
def toStr (value : List UInt8) : Option Text :=
  if value.all isVisibleAscii then some (value.map fun byte => Char.ofNat byte.toNat) else none

/-- `handle_post` of the headers and the body. -/
def receivePost (env : Env) (format : Json.Format) (casing : Casing) (server : McpServer)
    (headers : HeaderMap) (body : List UInt8) (world : World) : Response × World :=
  handlePost env format casing server
    { origin := (headers.get "origin").bind toStr
      authorization := (headers.get "authorization").bind toStr
      body := body } world

/-- What the guard turns a request away with. -/
def badOrigin : Response := .text 403 "bad origin"

/-! ## Origins of the machine itself -/

/-- The schemes of a local origin. -/
inductive Scheme where
  | http
  | https
deriving DecidableEq, Repr

def Scheme.name : Scheme → String
  | .http => "http"
  | .https => "https"

/-- The names the machine has for itself. -/
inductive LocalHost where
  | loopback
  | localhost
deriving DecidableEq, Repr

def LocalHost.name : LocalHost → String
  | .loopback => "127.0.0.1"
  | .localhost => "localhost"

/-- A port as it is written. -/
structure Port where
  digits : Text
  notEmpty : digits ≠ []
  areDigits : ∀ char ∈ digits, char.isDigit = true
  small : Nat.ofDigitChars 10 digits 0 < 65536

/-- What stands behind the host of an origin: nothing, or a port. -/
def portText : Option Port → Text
  | none => []
  | some port => ':' :: port.digits

/-- An origin up to its host. -/
def siteOf (scheme : Scheme) (host : LocalHost) : Text :=
  scheme.name.toList ++ "://".toList ++ host.name.toList

/-- An origin of the machine itself. -/
structure LocalOrigin where
  scheme : Scheme
  host : LocalHost
  port : Option Port

def LocalOrigin.text (origin : LocalOrigin) : Text :=
  siteOf origin.scheme origin.host ++ portText origin.port

/-- A header value that is such an origin, and nothing else. -/
def IsLocal (value : List UInt8) : Prop := ∃ origin : LocalOrigin, value = Utf8.encode origin.text

/-- A header value that is no look-alike: it can be read, and where it begins with an accepted
host, nothing or a port stands behind it. -/
structure NoLookAlike (value : List UInt8) : Prop where
  visible : ∀ byte ∈ value, isVisibleAscii byte = true
  ends : ∀ scheme host behind, value = Utf8.encode (siteOf scheme host ++ behind) →
    ∃ port, behind = portText port

/-! ## What a header is read as -/

theorem lt_of_isVisibleAscii {byte : UInt8} (visible : isVisibleAscii byte = true) : byte.toNat < 0x80 := by
  simp only [isVisibleAscii, Bool.or_eq_true, Bool.and_eq_true, decide_eq_true_eq,
    UInt8.le_iff_toNat_le, UInt8.lt_iff_toNat_lt] at visible
  rcases visible with ⟨-, below⟩ | rfl
  · exact below.trans (by decide)
  · decide

/-- A visible byte is the character of its number. -/
theorem toNat_charOf {byte : UInt8} (visible : isVisibleAscii byte = true) :
    (Char.ofNat byte.toNat).toNat = byte.toNat :=
  Utf16.toNat_charOfNat (.inl (by have small := lt_of_isVisibleAscii visible; omega))

/-- A header is read as the text that its bytes are. -/
theorem toStr_eq_some {value : List UInt8} (visible : ∀ byte ∈ value, isVisibleAscii byte = true) :
    ∃ text, toStr value = some text ∧ value = Utf8.encode text := by
  refine ⟨_, if_pos (List.all_eq_true.mpr visible), ?_⟩
  have ascii : ∀ char ∈ value.map fun byte => Char.ofNat byte.toNat, char.toNat < 0x80 := by
    intro char mem
    obtain ⟨byte, inValue, rfl⟩ := List.mem_map.mp mem
    rw [toNat_charOf (visible byte inValue)]
    exact lt_of_isVisibleAscii (visible byte inValue)
  have same : ∀ byte ∈ value, UInt8.ofNat (Char.ofNat byte.toNat).toNat = byte := by
    intro byte mem
    rw [toNat_charOf (visible byte mem), UInt8.ofNat_toNat]
  rw [Utf8.encode_ascii ascii, List.map_map]
  exact (List.map_id value).symm.trans (List.map_congr_left fun byte mem => (same byte mem).symm)

theorem toStr_eq_none {value : List UInt8} (hidden : ¬ ∀ byte ∈ value, isVisibleAscii byte = true) :
    toStr value = none :=
  if_neg fun visible => hidden (List.all_eq_true.mp visible)

/-! ## What is an origin of the machine -/

/-- The accepted beginnings are told apart by what stands in them. -/
theorem siteOf_append_inj {scheme scheme' : Scheme} {host host' : LocalHost} {behind behind' : Text}
    (same : siteOf scheme host ++ behind = siteOf scheme' host' ++ behind') : behind = behind' := by
  cases scheme <;> cases scheme' <;> cases host <;> cases host' <;>
    simp [siteOf, Scheme.name, LocalHost.name] at same
  all_goals exact same

theorem ascii_siteOf (scheme : Scheme) (host : LocalHost) :
    ∀ char ∈ siteOf scheme host, isVisibleAscii (UInt8.ofNat char.toNat) = true ∧ char.toNat < 0x80 := by
  cases scheme <;> cases host <;> decide

theorem ascii_portText (port : Option Port) :
    ∀ char ∈ portText port, isVisibleAscii (UInt8.ofNat char.toNat) = true ∧ char.toNat < 0x80 := by
  cases port with
  | none => exact fun char mem => absurd mem (List.not_mem_nil)
  | some port =>
    refine List.forall_mem_cons.mpr ⟨by decide, fun char mem => ?_⟩
    have digit := toNat_of_isDigit (port.areDigits char mem)
    have inTable : ∀ code < 0x3A, 0x30 ≤ code → isVisibleAscii (UInt8.ofNat code) = true := by decide
    exact ⟨inTable char.toNat (by omega) (by omega), by omega⟩

/-- A local origin can be read. -/
theorem IsLocal.visible {value : List UInt8} (isLocal : IsLocal value) :
    ∀ byte ∈ value, isVisibleAscii byte = true := by
  obtain ⟨origin, rfl⟩ := isLocal
  have ascii : ∀ char ∈ origin.text, isVisibleAscii (UInt8.ofNat char.toNat) = true ∧ char.toNat < 0x80 :=
    List.forall_mem_append.mpr ⟨ascii_siteOf _ _, ascii_portText _⟩
  intro byte mem
  rw [Utf8.encode_ascii fun char isChar => (ascii char isChar).2] at mem
  obtain ⟨char, isChar, rfl⟩ := List.mem_map.mp mem
  exact (ascii char isChar).1

/-- What is local is local by what stands behind its host. -/
theorem isLocal_site_iff (scheme : Scheme) (host : LocalHost) (behind : Text) :
    IsLocal (Utf8.encode (siteOf scheme host ++ behind)) ↔ ∃ port, behind = portText port := by
  constructor
  · rintro ⟨origin, same⟩
    exact ⟨origin.port, siteOf_append_inj (Utf8.encode_injective same)⟩
  · rintro ⟨port, rfl⟩
    exact ⟨⟨scheme, host, port⟩, rfl⟩

/-! ## The guard -/

/-- The guard accepts what begins with an accepted host. -/
theorem originOk_iff {text : Text} :
    originOk (some text) = true ↔ ∃ scheme host behind, text = siteOf scheme host ++ behind := by
  unfold originOk
  simp only [Option.all_some, List.any_eq_true, List.isPrefixOf_iff_prefix]
  constructor
  · rintro ⟨accepted, mem, behind, rfl⟩
    simp only [List.mem_cons, List.not_mem_nil, or_false] at mem
    rcases mem with rfl | rfl | rfl | rfl
    · exact ⟨.http, .loopback, behind, rfl⟩
    · exact ⟨.http, .localhost, behind, rfl⟩
    · exact ⟨.https, .loopback, behind, rfl⟩
    · exact ⟨.https, .localhost, behind, rfl⟩
  · rintro ⟨scheme, host, behind, rfl⟩
    refine ⟨scheme.name ++ "://" ++ host.name, ?_, behind, ?_⟩
    · cases scheme <;> cases host <;> decide
    · rw [siteOf, String.toList_append, String.toList_append]

/-- Only the guard answers as the guard does. -/
theorem handlePost_badOrigin_iff {env : Env} {format : Json.Format} {casing : Casing} {server : McpServer}
    {request : Request} {world : World} :
    (handlePost env format casing server request world).1 = badOrigin ↔ originOk request.origin = false := by
  have isJson : ∀ id result, jsonrpcResponse id result ≠ badOrigin := by
    rintro id (error | result) <;> exact Response.noConfusion
  unfold handlePost
  constructor
  · intro answered
    split at answered
    next refused => simpa using refused
    next =>
      split at answered
      next => exact absurd answered (by simp [badOrigin])
      next =>
        split at answered
        next => exact (isJson .null (.error _) answered).elim
        next =>
          split at answered
          next => exact Response.noConfusion answered
          next => exact (isJson _ _ answered).elim
  · intro refused
    rw [refused, if_pos (by rfl)]
    rfl

section Guard

variable {env : Env} {format : Json.Format} {casing : Casing} {server : McpServer} {headers : HeaderMap}
  {value : List UInt8}

theorem receivePost_badOrigin_iff (sent : headers.get "origin" = some value) (body : List UInt8)
    (world : World) :
    (receivePost env format casing server headers body world).1 = badOrigin ↔
      ∃ text, toStr value = some text ∧ originOk (some text) = false := by
  rw [receivePost, handlePost_badOrigin_iff, sent, Option.bind_some]
  cases toStr value with
  | none => simp [originOk]
  | some text => simp

/-- A request passes the guard by an Origin of the machine itself alone, if and only if its
Origin is no look-alike. -/
theorem passes_by_local_origin_iff (sent : headers.get "origin" = some value) (body : List UInt8)
    (world : World) :
    ((receivePost env format casing server headers body world).1 ≠ badOrigin → IsLocal value) ↔
      NoLookAlike value := by
  rw [Ne, receivePost_badOrigin_iff sent]
  constructor
  · intro onlyLocal
    have visible : ∀ byte ∈ value, isVisibleAscii byte = true := by
      by_contra hidden
      refine hidden (onlyLocal ?_).visible
      rintro ⟨text, read, -⟩
      rw [toStr_eq_none hidden] at read
      cases read
    refine ⟨visible, ?_⟩
    rintro scheme host behind rfl
    refine (isLocal_site_iff scheme host behind).mp (onlyLocal ?_)
    rintro ⟨text, read, refused⟩
    obtain ⟨other, isOther, same⟩ := toStr_eq_some visible
    obtain rfl : other = text := Option.some.inj (isOther.symm.trans read)
    have accepted := originOk_iff.mpr ⟨scheme, host, behind, (Utf8.encode_injective same).symm⟩
    rw [accepted] at refused
    cases refused
  · intro noLookAlike passed
    obtain ⟨text, read, rfl⟩ := toStr_eq_some noLookAlike.visible
    have accepted : originOk (some text) = true := by
      by_contra refused
      exact passed ⟨text, read, Bool.eq_false_iff.mpr refused⟩
    obtain ⟨scheme, host, behind, rfl⟩ := originOk_iff.mp accepted
    exact (isLocal_site_iff scheme host behind).mpr (noLookAlike.ends scheme host behind rfl)

/-- The Origin of a page served by a program on this machine. -/
theorem noLookAlike_localhost :
    let value := Utf8.encode "http://localhost:3000".toList
    HeaderMap.get [("origin", value)] "origin" = some value ∧ NoLookAlike value := by
  intro value
  let port : Port := ⟨"3000".toList, by decide, by decide, by decide⟩
  have isLocal : IsLocal value := ⟨⟨.http, .localhost, some port⟩, by decide +kernel⟩
  have meant := @passes_by_local_origin_iff (quietEnv (offlineBackend [])) sampleFormat .ascii sampleServer
    [("origin", value)] value rfl [] (listedOnce false)
  exact ⟨rfl, meant.mp fun _ => isLocal⟩

/-- A host that begins like the machine's own passes the guard. -/
theorem look_alike_passes :
    ¬ ∀ (env : Env) (format : Json.Format) (casing : Casing) (server : McpServer) (headers : HeaderMap)
        (value body : List UInt8) (world : World), headers.get "origin" = some value →
        (receivePost env format casing server headers body world).1 ≠ badOrigin → IsLocal value := by
  intro claim
  let value := Utf8.encode (siteOf .http .localhost ++ ".evil.example".toList)
  have passed : (receivePost (quietEnv (offlineBackend [])) sampleFormat .ascii sampleServer
      [("origin", value)] [] (listedOnce false)).1 ≠ badOrigin := by
    rw [Ne, @receivePost_badOrigin_iff _ _ _ _ [("origin", value)] value rfl]
    rintro ⟨text, read, refused⟩
    have isText : toStr value = some (siteOf .http .localhost ++ ".evil.example".toList) := by decide +kernel
    obtain rfl := Option.some.inj (isText.symm.trans read)
    rw [originOk_iff.mpr ⟨.http, .localhost, _, rfl⟩] at refused
    cases refused
  have isLocal := claim _ _ _ _ [("origin", value)] value _ _ rfl passed
  obtain ⟨port, ends⟩ := (isLocal_site_iff .http .localhost _).mp isLocal
  cases port <;> simp [portText] at ends

end Guard

end TutaBridge.Mcp
