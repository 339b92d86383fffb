import Mathlib.Data.Char
import Mathlib.Data.List.Destutter
import Mathlib.Data.List.Infix
import Mathlib.Data.List.Sort
import TutaBridge.Std.Table
import TutaBridge.Std.Text

/-!
# SEARCH

The search keys of RFC 3501, whether a message matches one, and the parser from
the arguments of the command. The parser reads a list of tokens and returns what
it did not consume.
-/

namespace TutaBridge.Imap

open TutaBridge.Std

variable (casing : Casing)

/-- One element of a sequence set. No `stop` stands for `*`. -/
structure SeqRange where
  start : UInt32
  stop : Option UInt32
deriving DecidableEq, Repr

structure SeqSet where
  ranges : List SeqRange
deriving DecidableEq, Repr

/-- `SeqSet::contains` for one range. -/
def SeqRange.contains (range : SeqRange) (value : UInt32) : Bool :=
  match range.stop with
  | none => range.start ≤ value
  | some stop =>
    if range.start ≤ stop then range.start ≤ value && value ≤ stop
    else stop ≤ value && value ≤ range.start

def SeqSet.contains (set : SeqSet) (value : UInt32) : Bool :=
  set.ranges.any (·.contains value)

/-- A parsed query. The dates are day numbers since the Unix epoch. -/
inductive SearchKey where
  | all
  | and (keys : List SearchKey)
  | or (left right : SearchKey)
  | not (key : SearchKey)
  | seen | unseen
  | answered | unanswered
  | flagged | unflagged
  | draft | undraft
  | deleted | undeleted
  | recent | new | old
  | keyword | unkeyword
  | subject (value : Text)
  | from (value : Text)
  | to (value : Text)
  | cc (value : Text)
  | bcc (value : Text)
  | body (value : Text)
  | text (value : Text)
  | header (name value : Text)
  | before (day : Int)
  | on (day : Int)
  | since (day : Int)
  | sentBefore (day : Int)
  | sentOn (day : Int)
  | sentSince (day : Int)
  | larger (size : UInt64)
  | smaller (size : UInt64)
  | uid (set : SeqSet)
  | sequence (set : SeqSet)

/-! ## Matching -/

/-- The fields of a message a query is matched against; `sender` is `from` and
`recipients` is `to`. -/
structure MsgView where
  seq : UInt32
  uid : UInt32
  elementId : String
  subject : Text
  sender : Text
  recipients : Text
  cc : Text
  bcc : Text
  headers : Text
  dateMs : UInt64
  sentMs : UInt64
  unread : Bool
  deleted : Bool
  size : UInt64

/-- The hits of the full-text index for each term of the query. -/
structure SearchContext where
  bodyHits : Dict Text (List String)

def SearchContext.bodyMatches (context : SearchContext) (term : Text) (elementId : String) : Bool :=
  match context.bodyHits.get? term with
  | none => false
  | some ids => elementId ∈ ids

/-- A case-insensitive substring test. -/
def containsCi (haystack needle : Text) : Bool :=
  needle.isEmpty || decide (casing.toLowercase needle <:+: casing.toLowercase haystack)

/-- `split("\r\n")`. -/
def splitLines : Text → List Text
  | [] => [[]]
  | '\r' :: '\n' :: rest => [] :: splitLines rest
  | head :: rest => (splitLines rest).modifyHead (head :: ·)

/-- Whether a header line of the name contains the value. -/
def headerContains (headers name value : Text) : Bool :=
  (splitLines headers).any fun line =>
    match Text.splitOnce ':' line with
    | none => false
    | some (field, content) =>
      decide (casing.toLowercase (Text.trim field) = casing.toLowercase name) &&
        (value.isEmpty || containsCi casing content value)

def dayNumber (ms : UInt64) : Int := ((ms.toNat / 86400000 : Nat) : Int)

mutual

/-- Whether the message satisfies the query. -/
def matchesKey (casing : Casing) (message : MsgView) (context : SearchContext) : SearchKey → Bool
  | .all => true
  | .and keys => matchesAll casing message context keys
  | .or left right => matchesKey casing message context left || matchesKey casing message context right
  | .not key => !matchesKey casing message context key
  | .seen => !message.unread
  | .unseen => message.unread
  | .answered => false
  | .unanswered => true
  | .flagged => false
  | .unflagged => true
  | .draft => false
  | .undraft => true
  | .deleted => message.deleted
  | .undeleted => !message.deleted
  | .recent => false
  | .new => false
  | .old => true
  | .keyword => false
  | .unkeyword => true
  | .subject value => containsCi casing message.subject value
  | .from value => containsCi casing message.sender value
  | .to value => containsCi casing message.recipients value
  | .cc value => containsCi casing message.cc value
  | .bcc value => containsCi casing message.bcc value
  | .body value => context.bodyMatches value message.elementId
  | .text value =>
    containsCi casing message.headers value || context.bodyMatches value message.elementId
  | .header name value => headerContains casing message.headers name value
  | .before day => dayNumber message.dateMs < day
  | .on day => dayNumber message.dateMs = day
  | .since day => day ≤ dayNumber message.dateMs
  | .sentBefore day => dayNumber message.sentMs < day
  | .sentOn day => dayNumber message.sentMs = day
  | .sentSince day => day ≤ dayNumber message.sentMs
  | .larger size => size < message.size
  | .smaller size => message.size < size
  | .uid set => set.contains message.uid
  | .sequence set => set.contains message.seq

/-- `keys.iter().all(..)`. -/
def matchesAll (casing : Casing) (message : MsgView) (context : SearchContext) : List SearchKey → Bool
  | [] => true
  | key :: rest => matchesKey casing message context key && matchesAll casing message context rest

end

mutual

/-- `collect_body_terms_into`: the terms of `BODY` and `TEXT`, in order. -/
def bodyTerms : SearchKey → List Text
  | .and keys => bodyTermsOf keys
  | .or left right => bodyTerms left ++ bodyTerms right
  | .not key => bodyTerms key
  | .body value => [value]
  | .text value => [value]
  | _ => []

def bodyTermsOf : List SearchKey → List Text
  | [] => []
  | key :: rest => bodyTerms key ++ bodyTermsOf rest

end

/-- The terms sorted, each once. -/
def collectBodyTerms (key : SearchKey) : List Text :=
  ((bodyTerms key).insertionSort (· ≤ ·)).destutter (· ≠ ·)

/-! ## Tokens -/

inductive Token where
  | lparen
  | rparen
  | atom (text : Text)
  | quoted (text : Text)
deriving DecidableEq, Repr

/-- The characters between two tokens. -/
def isBlank (char : Char) : Bool := char == ' ' || char == '\t' || char == '\r' || char == '\n'

/-- The characters that end an atom. -/
def endsAtom (char : Char) : Bool :=
  char == ' ' || char == '\t' || char == '(' || char == ')' || char == '"'

/-- The content of a quoted string and what follows it. A string that is not
closed runs to the end. -/
def readQuoted : Text → Text × Text
  | [] => ([], [])
  | '\\' :: escaped :: rest => ((escaped :: (readQuoted rest).1), (readQuoted rest).2)
  | ['\\'] => ([], [])
  | '"' :: rest => ([], rest)
  | char :: rest => ((char :: (readQuoted rest).1), (readQuoted rest).2)

theorem length_readQuoted_le (text : Text) : (readQuoted text).2.length ≤ text.length := by
  fun_induction readQuoted text <;> simp_all <;> omega

def tokenize : Text → List Token
  | [] => []
  | char :: rest =>
    if isBlank char then tokenize rest
    else if char = '(' then .lparen :: tokenize rest
    else if char = ')' then .rparen :: tokenize rest
    else if char = '"' then .quoted (readQuoted rest).1 :: tokenize (readQuoted rest).2
    else
      .atom (char :: rest.takeWhile fun next => !endsAtom next) ::
        tokenize (rest.dropWhile fun next => !endsAtom next)
termination_by text => text.length
decreasing_by
  · simp
  · simp
  · simp
  · have := length_readQuoted_le rest
    simp only [List.length_cons]
    omega
  · have := (List.dropWhile_suffix (fun next => !endsAtom next) (l := rest)).length_le
    simp only [List.length_cons]
    omega

/-! ## Arguments -/

/-- `str::parse::<u32>`. -/
def parseU32 (text : Text) : Option UInt32 := (Text.parseUnsigned 32 text).map UInt32.ofNat

/-- `str::parse::<u64>`. -/
def parseU64 (text : Text) : Option UInt64 := (Text.parseUnsigned 64 text).map UInt64.ofNat

def isSeqset (text : Text) : Bool :=
  !text.isEmpty && text.all fun char => char.isDigit || char == ':' || char == ',' || char == '*'

/-- One element of a sequence set. What does not parse as the end of a range is
read like `*`, and what does not parse as its start like `0`. -/
def parseSeqPart (part : Text) : Option SeqRange :=
  if part.isEmpty then none
  else
    match Text.splitOnce ':' part with
    | some (first, last) =>
      some ⟨if first = ['*'] then 0 else (parseU32 first).getD 0,
        if last = ['*'] then none else parseU32 last⟩
    | none =>
      if part = ['*'] then some ⟨0, none⟩
      else (parseU32 part).map fun value => ⟨value, some value⟩

def parseSeqset (text : Text) : SeqSet := ⟨(text.splitOn ',').filterMap parseSeqPart⟩

/-- The months as `parse_imap_date` names them. -/
def monthNames : List Text :=
  ["jan".toList, "feb".toList, "mar".toList, "apr".toList, "may".toList, "jun".toList,
    "jul".toList, "aug".toList, "sep".toList, "oct".toList, "nov".toList, "dec".toList]

/-- Days since 1970-01-01 of a date. The divisions truncate, as Rust's do. -/
def daysFromCivil (year month day : Int) : Int :=
  let y := if month ≤ 2 then year - 1 else year
  let era := (if 0 ≤ y then y else y - 399).tdiv 400
  let yoe := y - era * 400
  let doy := (153 * (if 2 < month then month - 3 else month + 9) + 2).tdiv 5 + day - 1
  let doe := yoe * 365 + yoe.tdiv 4 - yoe.tdiv 100 + doy
  era * 146097 + doe - 719468

/-- A date `dd-Mon-yyyy` as a day number. -/
def parseImapDate (text : Text) : Option Int :=
  match text.splitOn '-' with
  | [first, second, third] => do
      let day ← Text.parseSigned 64 first
      let month ← monthNames.findIdx? (· = casing.toLowercase second)
      let year ← Text.parseSigned 64 third
      some (daysFromCivil year (month + 1) day)
  | _ => none

/-! ## Keys -/

/-- The words `parse_atom_key` knows. -/
inductive Keyword where
  | all | answered | unanswered | seen | unseen | flagged | unflagged | deleted | undeleted
  | draft | undraft | recent | new | old
  | or | not | charset
  | subject | sender | recipient | cc | bcc | body | text
  | keyword | unkeyword | header
  | before | onDay | since | sentBefore | sentOn | sentSince
  | larger | smaller | uid
deriving DecidableEq, Repr

def Keyword.name : Keyword → Text
  | .all => "ALL".toList
  | .answered => "ANSWERED".toList
  | .unanswered => "UNANSWERED".toList
  | .seen => "SEEN".toList
  | .unseen => "UNSEEN".toList
  | .flagged => "FLAGGED".toList
  | .unflagged => "UNFLAGGED".toList
  | .deleted => "DELETED".toList
  | .undeleted => "UNDELETED".toList
  | .draft => "DRAFT".toList
  | .undraft => "UNDRAFT".toList
  | .recent => "RECENT".toList
  | .new => "NEW".toList
  | .old => "OLD".toList
  | .or => "OR".toList
  | .not => "NOT".toList
  | .charset => "CHARSET".toList
  | .subject => "SUBJECT".toList
  | .sender => "FROM".toList
  | .recipient => "TO".toList
  | .cc => "CC".toList
  | .bcc => "BCC".toList
  | .body => "BODY".toList
  | .text => "TEXT".toList
  | .keyword => "KEYWORD".toList
  | .unkeyword => "UNKEYWORD".toList
  | .header => "HEADER".toList
  | .before => "BEFORE".toList
  | .onDay => "ON".toList
  | .since => "SINCE".toList
  | .sentBefore => "SENTBEFORE".toList
  | .sentOn => "SENTON".toList
  | .sentSince => "SENTSINCE".toList
  | .larger => "LARGER".toList
  | .smaller => "SMALLER".toList
  | .uid => "UID".toList

/-- The arms of `parse_atom_key`, in their order. -/
def Keyword.arms : List Keyword :=
  [.all, .answered, .unanswered, .seen, .unseen, .flagged, .unflagged, .deleted, .undeleted,
    .draft, .undraft, .recent, .new, .old, .or, .not, .charset, .subject, .sender, .recipient, .cc,
    .bcc, .body, .text, .keyword, .unkeyword, .header, .before, .onDay, .since, .sentBefore,
    .sentOn, .sentSince, .larger, .smaller, .uid]

def Keyword.ofName (name : Text) : Option Keyword :=
  Keyword.arms.find? fun word => word.name = name

def foldAnd : List SearchKey → SearchKey
  | [] => .all
  | [key] => key
  | keys => .and keys

/-- The next token as an argument. -/
def nextArg : List Token → Option Text × List Token
  | .atom text :: rest => (some text, rest)
  | .quoted text :: rest => (some text, rest)
  | tokens => (none, tokens)

def strKey (key : Text → SearchKey) (tokens : List Token) : SearchKey × List Token :=
  let arg := nextArg tokens
  (key (arg.1.getD []), arg.2)

def dateKey (key : Int → SearchKey) (tokens : List Token) : SearchKey × List Token :=
  let arg := nextArg tokens
  match arg.1.bind (parseImapDate casing) with
  | some day => (key day, arg.2)
  | none => (.all, arg.2)

def sizeKey (key : UInt64 → SearchKey) (tokens : List Token) : SearchKey × List Token :=
  let arg := nextArg tokens
  match arg.1.bind parseU64 with
  | some size => (key size, arg.2)
  | none => (.all, arg.2)

/-- `parse_atom_key`, with the parser of the keys that follow `OR`, `NOT` and
`CHARSET` as `parseKey`. -/
def parseAtomKey (parseKey : List Token → Option SearchKey × List Token)
    (atom : Text) (tokens : List Token) : SearchKey × List Token :=
  match Keyword.ofName (casing.toUppercase atom) with
  | some .all => (.all, tokens)
  | some .answered => (.answered, tokens)
  | some .unanswered => (.unanswered, tokens)
  | some .seen => (.seen, tokens)
  | some .unseen => (.unseen, tokens)
  | some .flagged => (.flagged, tokens)
  | some .unflagged => (.unflagged, tokens)
  | some .deleted => (.deleted, tokens)
  | some .undeleted => (.undeleted, tokens)
  | some .draft => (.draft, tokens)
  | some .undraft => (.undraft, tokens)
  | some .recent => (.recent, tokens)
  | some .new => (.new, tokens)
  | some .old => (.old, tokens)
  | some .or =>
    let left := parseKey tokens
    let right := parseKey left.2
    (.or (left.1.getD .all) (right.1.getD .all), right.2)
  | some .not =>
    let key := parseKey tokens
    (.not (key.1.getD .all), key.2)
  | some .charset =>
    let key := parseKey (nextArg tokens).2
    (key.1.getD .all, key.2)
  | some .subject => strKey .subject tokens
  | some .sender => strKey .from tokens
  | some .recipient => strKey .to tokens
  | some .cc => strKey .cc tokens
  | some .bcc => strKey .bcc tokens
  | some .body => strKey .body tokens
  | some .text => strKey .text tokens
  | some .keyword => (.keyword, (nextArg tokens).2)
  | some .unkeyword => (.unkeyword, (nextArg tokens).2)
  | some .header =>
    let name := nextArg tokens
    let value := nextArg name.2
    (.header (name.1.getD []) (value.1.getD []), value.2)
  | some .before => dateKey casing .before tokens
  | some .onDay => dateKey casing .on tokens
  | some .since => dateKey casing .since tokens
  | some .sentBefore => dateKey casing .sentBefore tokens
  | some .sentOn => dateKey casing .sentOn tokens
  | some .sentSince => dateKey casing .sentSince tokens
  | some .larger => sizeKey .larger tokens
  | some .smaller => sizeKey .smaller tokens
  | some .uid =>
    let arg := nextArg tokens
    (.uid ((arg.1.map parseSeqset).getD ⟨[]⟩), arg.2)
  | none => (if isSeqset atom then .sequence (parseSeqset atom) else .all, tokens)

mutual

/-- `parse_key_list`: the keys up to the end, or up to the parenthesis that
closes the group. Both functions take a unit of fuel a call, and `parse` has
more than two for each token, which is always enough. -/
def parseKeyList (casing : Casing) : Nat → List Token → Bool → List SearchKey × List Token
  | 0, tokens, _ => ([], tokens)
  | _ + 1, [], _ => ([], [])
  | fuel + 1, .rparen :: rest, inGroup =>
    if inGroup then ([], rest) else parseKeyList casing fuel rest inGroup
  | fuel + 1, tokens, inGroup =>
    let key := parseKey casing fuel tokens
    match key.1 with
    | none => ([], key.2)
    | some first =>
      let later := parseKeyList casing fuel key.2 inGroup
      (first :: later.1, later.2)

/-- `parse_key`: one key. -/
def parseKey (casing : Casing) : Nat → List Token → Option SearchKey × List Token
  | _, [] => (none, [])
  | 0, tokens => (none, tokens)
  | fuel + 1, .lparen :: rest =>
    let group := parseKeyList casing fuel rest true
    (some (foldAnd group.1), group.2)
  | _ + 1, .rparen :: rest => (none, rest)
  | _ + 1, .quoted _ :: rest => (some .all, rest)
  | fuel + 1, .atom text :: rest =>
    let key := parseAtomKey casing (parseKey casing fuel) text rest
    (some key.1, key.2)

end

/-- The query a client asked for. -/
def parse (args : Text) : SearchKey :=
  let tokens := tokenize args
  foldAnd (parseKeyList casing (2 * tokens.length + 1) tokens false).1

/-- A list of keys goes on with the next key unless it is closed. -/
theorem parseKeyList_open {first : Token} (opens : first ≠ .rparen) (fuel : Nat)
    (tokens : List Token) (inGroup : Bool) :
    parseKeyList casing (fuel + 1) (first :: tokens) inGroup =
      match (parseKey casing fuel (first :: tokens)).1 with
      | none => ([], (parseKey casing fuel (first :: tokens)).2)
      | some key =>
        let later := parseKeyList casing fuel (parseKey casing fuel (first :: tokens)).2 inGroup
        (key :: later.1, later.2) := by
  cases first with
  | rparen => exact absurd rfl opens
  | lparen => rw [parseKeyList] <;> nofun
  | atom text => rw [parseKeyList] <;> nofun
  | quoted text => rw [parseKeyList] <;> nofun

/-! ## The fuel of the parser -/

section Fuel

variable (casing : Casing)

theorem length_nextArg_le (tokens : List Token) : (nextArg tokens).2.length ≤ tokens.length := by
  unfold nextArg
  split <;> simp

theorem length_strKey_le (key : Text → SearchKey) (tokens : List Token) :
    (strKey key tokens).2.length ≤ tokens.length :=
  length_nextArg_le tokens

theorem length_dateKey_le (key : Int → SearchKey) (tokens : List Token) :
    (dateKey casing key tokens).2.length ≤ tokens.length := by
  unfold dateKey
  dsimp only
  split <;> exact length_nextArg_le tokens

theorem length_sizeKey_le (key : UInt64 → SearchKey) (tokens : List Token) :
    (sizeKey key tokens).2.length ≤ tokens.length := by
  unfold sizeKey
  dsimp only
  split <;> exact length_nextArg_le tokens

/-- An atom consumes what its arguments are, and no more than there is. -/
theorem length_parseAtomKey_le {parser : List Token → Option SearchKey × List Token}
    (consumes : ∀ tokens, (parser tokens).2.length ≤ tokens.length) (atom : Text)
    (tokens : List Token) : (parseAtomKey casing parser atom tokens).2.length ≤ tokens.length := by
  unfold parseAtomKey
  split
  case h_15 => exact (consumes _).trans (consumes _)
  case h_16 => exact consumes _
  case h_17 => exact (consumes _).trans (length_nextArg_le _)
  case h_27 => exact (length_nextArg_le _).trans (length_nextArg_le _)
  all_goals first
    | exact le_rfl
    | exact length_strKey_le _ _
    | exact length_dateKey_le casing _ _
    | exact length_sizeKey_le _ _
    | exact length_nextArg_le _

/-- Only what the parser answers on the tokens that are there matters. -/
theorem parseAtomKey_congr {first second : List Token → Option SearchKey × List Token} {bound : Nat}
    (same : ∀ tokens, tokens.length ≤ bound → first tokens = second tokens)
    (consumes : ∀ tokens, (second tokens).2.length ≤ tokens.length) (atom : Text)
    {tokens : List Token} (fits : tokens.length ≤ bound) :
    parseAtomKey casing first atom tokens = parseAtomKey casing second atom tokens := by
  have afterFirst := same _ ((consumes tokens).trans fits)
  have afterArg := same _ ((length_nextArg_le tokens).trans fits)
  simp only [parseAtomKey, same tokens fits, afterFirst, afterArg]

/-- A list of keys and a key consume no more than there is. -/
theorem length_parse_le (fuel : Nat) :
    (∀ tokens inGroup, (parseKeyList casing fuel tokens inGroup).2.length ≤ tokens.length) ∧
      ∀ tokens, (parseKey casing fuel tokens).2.length ≤ tokens.length := by
  induction fuel with
  | zero =>
    refine ⟨fun tokens inGroup => by rw [parseKeyList], fun tokens => ?_⟩
    cases tokens <;> simp [parseKey]
  | succ fuel ih =>
    obtain ⟨listConsumes, keyConsumes⟩ := ih
    constructor
    · intro tokens inGroup
      match tokens with
      | [] => simp [parseKeyList]
      | first :: rest =>
        by_cases closes : first = .rparen
        · rw [closes, parseKeyList]
          split
          · simp
          · exact (listConsumes rest inGroup).trans (by simp)
        · rw [parseKeyList_open casing closes]
          split
          next => exact keyConsumes _
          next => exact (listConsumes _ inGroup).trans (keyConsumes _)
    · intro tokens
      match tokens with
      | [] => simp [parseKey]
      | .lparen :: rest =>
        rw [parseKey]
        exact (listConsumes rest true).trans (by simp)
      | .rparen :: rest => simp [parseKey]
      | .quoted text :: rest => simp [parseKey]
      | .atom text :: rest =>
        rw [parseKey]
        exact (length_parseAtomKey_le casing keyConsumes text rest).trans (by simp)

/-- A key is at least one token. -/
theorem length_parseKey_lt (fuel : Nat) (token : Token) (tokens : List Token) (some : 0 < fuel) :
    (parseKey casing fuel (token :: tokens)).2.length ≤ tokens.length := by
  obtain ⟨fuel, rfl⟩ : ∃ smaller, fuel = smaller + 1 := ⟨fuel - 1, by omega⟩
  obtain ⟨listConsumes, keyConsumes⟩ := length_parse_le casing fuel
  cases token with
  | lparen => exact listConsumes tokens true
  | rparen => exact le_rfl
  | quoted text => exact le_rfl
  | atom text => exact length_parseAtomKey_le casing keyConsumes text tokens

/-- Fuel beyond twice the number of tokens changes nothing. -/
theorem parse_fuel_succ (fuel : Nat) : (∀ tokens inGroup, 2 * tokens.length < fuel →
      parseKeyList casing fuel tokens inGroup = parseKeyList casing (fuel + 1) tokens inGroup) ∧
      ∀ tokens, 2 * tokens.length ≤ fuel → parseKey casing fuel tokens = parseKey casing (fuel + 1) tokens := by
  induction fuel with
  | zero =>
    refine ⟨nofun, fun tokens enough => ?_⟩
    have isEmpty : tokens = [] := List.eq_nil_of_length_eq_zero (by omega)
    rw [isEmpty, parseKey, parseKey]
  | succ fuel ih =>
    obtain ⟨sameList, sameKey⟩ := ih
    constructor
    · intro tokens inGroup enough
      match tokens with
      | [] => rw [parseKeyList, parseKeyList]
      | first :: rest =>
        rw [List.length_cons] at enough
        by_cases closes : first = .rparen
        · rw [closes, parseKeyList, parseKeyList, sameList rest inGroup (by omega)]
        · have shorter := length_parseKey_lt casing fuel first rest (by omega)
          rw [parseKeyList_open casing closes, parseKeyList_open casing closes,
            ← sameKey (first :: rest) (by rw [List.length_cons]; omega),
            sameList _ inGroup (by omega)]
    · intro tokens enough
      match tokens with
      | [] => rw [parseKey, parseKey]
      | .lparen :: rest =>
        rw [List.length_cons] at enough
        rw [parseKey, parseKey, sameList rest true (by omega)]
      | .rparen :: rest => rw [parseKey, parseKey]
      | .quoted text :: rest => rw [parseKey, parseKey]
      | .atom text :: rest =>
        rw [List.length_cons] at enough
        have same : ∀ tokens : List Token, tokens.length ≤ rest.length →
            parseKey casing fuel tokens = parseKey casing (fuel + 1) tokens :=
          fun tokens fits => sameKey tokens (by omega)
        rw [parseKey, parseKey, parseAtomKey_congr casing same
          (length_parse_le casing (fuel + 1)).2 text le_rfl]

end Fuel

end TutaBridge.Imap
