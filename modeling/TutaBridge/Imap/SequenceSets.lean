import TutaBridge.Imap.SearchPrint
import TutaBridge.Imap.Session
import TutaBridge.Std.Sorting

/-!
# Sequence sets, read twice

A sequence set of RFC 3501 is read by `parse_seqset` when it stands in a SEARCH
and by `resolve_sequence_set` when it stands in a FETCH. SEARCH takes `*` for a
bound that excludes nothing, FETCH for the largest number there is. For each
element of a set, `searched` and `fetched` say which messages the two pick, and
the two commands agree on a view exactly when the other elements make up for
every difference.
-/

namespace TutaBridge.Imap

open TutaBridge.Std Store

variable (casing : Casing)

variable {elements : List SeqElement} (element : SeqElement) (number : SeqNumber)

/-- A `seq-number`: a non-zero number of 32 bits, or `*`. -/
inductive SeqNumber where
  | number (value : Nat) (positive : 0 < value) (fits : value < 2 ^ 32)
  | star

/-- An element of a sequence set. -/
inductive SeqElement where
  | one (number : SeqNumber)
  | range (first last : SeqNumber)

namespace SeqNumber

def print : SeqNumber → Text
  | .number value _ _ => Text.decimal value
  | .star => ['*']

/-- The number when `*` is the last one. -/
def value (last : Nat) : SeqNumber → Nat
  | .number value _ _ => value
  | .star => last

/-- The number as SEARCH keeps it. -/
def bound : SeqNumber → Option UInt32
  | .number value _ _ => some (.ofNat value)
  | .star => none

end SeqNumber

namespace SeqElement

def print : SeqElement → Text
  | .one number => number.print
  | .range first last => first.print ++ ':' :: last.print

/-- The range SEARCH makes of an element. -/
def parsed : SeqElement → SeqRange
  | .one number => ⟨number.bound.getD 0, number.bound⟩
  | .range first last => ⟨first.bound.getD 0, last.bound⟩

/-- SEARCH picks the message of the number. -/
def searched (number : Nat) : SeqElement → Prop
  | .one (.number value _ _) => number = value
  | .one .star => True
  | .range (.number first _ _) (.number last _ _) => min first last ≤ number ∧ number ≤ max first last
  | .range (.number first _ _) .star => first ≤ number
  | .range .star (.number last _ _) => number ≤ last
  | .range .star .star => True

/-- FETCH picks the message of the number. -/
def fetched (last number : Nat) : SeqElement → Prop
  | .one only => number = only.value last
  | .range first second =>
    min (first.value last) (second.value last) ≤ number ∧ number ≤ max (first.value last) (second.value last)

/-- The messages SEARCH misses: the last one when the range starts beyond it, and
what lies above `n` in `*:n`. -/
def missed (last number : Nat) : SeqElement → Prop
  | .range (.number first _ _) .star => last < first ∧ number = last
  | .range .star (.number second _ _) => second < number
  | _ => False

/-- The messages SEARCH picks too many: all but the last one for `*` and `*:*`,
and what lies below `n` in `*:n`. -/
def extra (last number : Nat) : SeqElement → Prop
  | .one .star => number < last
  | .range .star .star => number < last
  | .range .star (.number second _ _) => number < second ∧ number < last
  | _ => False

end SeqElement

/-- A set as the client writes it. -/
def printElements (elements : List SeqElement) : Text :=
  [','].intercalate (elements.map SeqElement.print)

/-- The arguments of the SEARCH that asks for the set, of numbers or of UIDs. -/
def searchArgs (elements : List SeqElement) (uidMode : Bool) : Text :=
  if uidMode then Keyword.uid.name ++ ' ' :: printElements elements else printElements elements

/-- `build_search_view`. What is derived from the rendered message is given. -/
def buildSearchView (derived : CachedMail → MsgView) (index : Nat) (cached : CachedMail) : MsgView :=
  { derived cached with
    seq := .ofNat (index + 1)
    uid := .ofNat cached.uid
    elementId := cached.elementId.getD ""
    subject := cached.mail.subject.toList
    dateMs := .ofNat cached.mail.receivedDate
    unread := cached.mail.unread
    deleted := cached.deleted }

/-- The indices of the messages `cmd_search` finds. -/
def searchHits (derived : CachedMail → MsgView) (context : SearchContext)
    (args : Text) (session : ImapSession) : List Nat :=
  (List.range session.mails.length).filter fun index =>
    match session.mails[index]? with
    | none => false
    | some cached =>
      matchesKey casing (buildSearchView derived index cached) context (parse casing args)

/-! ## What SEARCH reads -/

section Search

theorem SeqNumber.mem_print {number : SeqNumber} {char : Char} (mem : char ∈ number.print) :
    char.isDigit = true ∨ char = '*' := by
  cases number with
  | number value positive fits => exact .inl (Text.isDigit_of_mem_decimal mem)
  | star => exact .inr (List.mem_singleton.mp mem)

theorem SeqNumber.print_ne_nil : number.print ≠ [] := by
  cases number with
  | number value positive fits => exact Text.decimal_ne_nil value
  | star => nofun

theorem SeqNumber.no_colon : ':' ∉ number.print := by
  intro mem
  rcases SeqNumber.mem_print mem with digit | star
  · exact absurd digit (by decide)
  · exact absurd star (by decide)

/-- SEARCH keeps a number and drops `*`. -/
theorem SeqNumber.parseU32_print :
    (if number.print = ['*'] then none else parseU32 number.print) = number.bound := by
  cases number with
  | number value positive fits =>
    rw [SeqNumber.print, if_neg (decimal_ne_star value), parseU32, Text.parseUnsigned_decimal fits]
    rfl
  | star => rfl

theorem SeqElement.mem_print {element : SeqElement} {char : Char} (mem : char ∈ element.print) :
    (char.isDigit = true ∨ char = '*') ∨ char = ':' := by
  cases element with
  | one number => exact .inl (SeqNumber.mem_print mem)
  | range first last =>
    rcases List.mem_append.mp mem with inFirst | later
    · exact .inl (SeqNumber.mem_print inFirst)
    · rcases List.mem_cons.mp later with colon | inLast
      · exact .inr colon
      · exact .inl (SeqNumber.mem_print inLast)

theorem SeqElement.print_ne_nil : element.print ≠ [] := by
  cases element with
  | one number => exact number.print_ne_nil
  | range first last => simp [SeqElement.print]

theorem SeqElement.no_comma : ',' ∉ element.print := by
  intro mem
  rcases SeqElement.mem_print mem with (digit | star) | colon
  · exact absurd digit (by decide)
  · exact absurd star (by decide)
  · exact absurd colon (by decide)

theorem splitOn_printElements (notEmpty : elements ≠ []) :
    (printElements elements).splitOn ',' = elements.map SeqElement.print := by
  refine List.splitOn_intercalate ',' ?_ (by simpa using notEmpty)
  rintro part mem
  obtain ⟨element, -, rfl⟩ := List.mem_map.mp mem
  exact element.no_comma

theorem isSeqset_printElements (notEmpty : elements ≠ []) : isSeqset (printElements elements) = true := by
  have someChar : printElements elements ≠ [] := by
    intro isEmpty
    have parts := splitOn_printElements notEmpty
    rw [isEmpty] at parts
    cases elements with
    | nil => exact notEmpty rfl
    | cons first rest =>
      rw [List.map_cons] at parts
      exact first.print_ne_nil (List.cons.inj parts).1.symm
  have allowed : ∀ char ∈ printElements elements,
      char.isDigit = true ∨ char = ':' ∨ char = ',' ∨ char = '*' := by
    intro char mem
    rcases Text.mem_intercalate mem with comma | ⟨part, inParts, inPart⟩
    · exact .inr (.inr (.inl comma))
    · obtain ⟨element, -, rfl⟩ := List.mem_map.mp inParts
      rcases SeqElement.mem_print inPart with (digit | star) | colon
      · exact .inl digit
      · exact .inr (.inr (.inr star))
      · exact .inr (.inl colon)
  simpa [isSeqset, someChar, or_assoc] using allowed

theorem parseSeqPart_print : parseSeqPart element.print = some element.parsed := by
  have notEmpty : element.print.isEmpty = false := by simp [element.print_ne_nil]
  rw [parseSeqPart, notEmpty]
  cases element with
  | one number =>
    cases number with
    | number value positive fits =>
      have noColon : ':' ∉ Text.decimal value := Text.not_mem_decimal (by decide)
      simp [SeqElement.print, SeqNumber.print, SeqElement.parsed, SeqNumber.bound, decimal_ne_star,
        Text.splitOnce_eq_none noColon, parseU32, Text.parseUnsigned_decimal fits]
    | star => rfl
  | range first last =>
    rw [SeqElement.print, Text.splitOnce_append first.no_colon]
    simp only [SeqElement.parsed, ← SeqNumber.parseU32_print]
    by_cases isStar : first.print = ['*'] <;> simp [isStar]

theorem parseSeqset_printElements (notEmpty : elements ≠ []) :
    parseSeqset (printElements elements) = ⟨elements.map SeqElement.parsed⟩ := by
  have parsed : parseSeqPart ∘ SeqElement.print = some ∘ SeqElement.parsed :=
    funext parseSeqPart_print
  rw [parseSeqset, splitOn_printElements notEmpty, List.filterMap_map, parsed, List.filterMap_eq_map]

/-- SEARCH with a set, of numbers or of UIDs, is parsed to that set. -/
theorem parse_searchArgs (notEmpty : elements ≠ []) (uidMode : Bool) :
    parse casing (searchArgs elements uidMode) =
      if uidMode then .uid ⟨elements.map SeqElement.parsed⟩
      else .sequence ⟨elements.map SeqElement.parsed⟩ := by
  have isSet := isSeqset_printElements notEmpty
  have atom := tokenize_atom (solid_of_isSeqset isSet) delimited_nil
  rw [List.append_nil, tokenize] at atom
  cases uidMode with
  | false =>
    simp [searchArgs, parse, atom, parseKeyList, parseKey, parseAtomKey, ofName_seqset casing isSet,
      isSet, parseSeqset_printElements notEmpty, foldAnd]
  | true =>
    have tokens : tokenize (searchArgs elements true) =
        [.atom Keyword.uid.name, .atom (printElements elements)] := by
      rw [searchArgs, if_pos rfl, tokenize_atom Keyword.uid.solid_name (delimited_cons (by decide)),
        tokenize_blank, atom]
    simp [parse, tokens, parseKeyList, parseKey, parseAtomKey, Keyword.toUppercase_name,
      Keyword.ofName_name, nextArg, parseSeqset_printElements notEmpty, foldAnd]

theorem SeqRange.contains_open (start value : UInt32) :
    SeqRange.contains ⟨start, none⟩ value = true ↔ start.toNat ≤ value.toNat := by
  simp [SeqRange.contains, UInt32.le_iff_toNat_le]

theorem SeqRange.contains_closed (start stop value : UInt32) : SeqRange.contains ⟨start, some stop⟩ value = true ↔
      min start.toNat stop.toNat ≤ value.toNat ∧ value.toNat ≤ max start.toNat stop.toNat := by
  simp only [SeqRange.contains, UInt32.le_iff_toNat_le]
  split <;> simp only [Bool.and_eq_true, decide_eq_true_eq] <;> omega

/-- A range of SEARCH contains what its element is searched for. -/
theorem SeqElement.contains_parsed {number : Nat} (fits : number < 2 ^ 32) :
    element.parsed.contains (.ofNat number) = true ↔ element.searched number := by
  have toNat : ∀ value, value < 2 ^ 32 → (UInt32.ofNat value).toNat = value :=
    fun value fits => UInt32.toNat_ofNat_of_lt' fits
  match element with
  | .one (.number value _ small) =>
    simp only [parsed, SeqNumber.bound, Option.getD_some, SeqRange.contains_closed, searched,
      toNat number fits, toNat value small]
    omega
  | .one .star => simp [parsed, SeqNumber.bound, SeqRange.contains_open, searched]
  | .range (.number first _ firstSmall) (.number last _ lastSmall) =>
    simp only [parsed, SeqNumber.bound, Option.getD_some, SeqRange.contains_closed, searched,
      toNat number fits, toNat first firstSmall, toNat last lastSmall]
  | .range (.number first _ small) .star =>
    simp only [parsed, SeqNumber.bound, Option.getD_some, SeqRange.contains_open, searched,
      toNat number fits, toNat first small]
  | .range .star (.number last _ small) =>
    simp only [parsed, SeqNumber.bound, Option.getD_none, SeqRange.contains_closed, searched,
      toNat number fits, toNat last small, UInt32.toNat_zero]
    omega
  | .range .star .star => simp [parsed, SeqNumber.bound, SeqRange.contains_open, searched]

/-- The number the set is about: the sequence number of the message or its UID. -/
def numberAt (uids : List Nat) (uidMode : Bool) (index : Nat) : Nat :=
  if uidMode then uids.getD index 0 else index + 1

theorem contains_parsed_iff (elements : List SeqElement) {number : Nat} (fits : number < 2 ^ 32) :
    SeqSet.contains ⟨elements.map SeqElement.parsed⟩ (.ofNat number) = true ↔
      ∃ element ∈ elements, element.searched number := by
  simp only [SeqSet.contains, List.any_map, List.any_eq_true, Function.comp_apply,
    SeqElement.contains_parsed _ fits]

/-- SEARCH finds the messages some element is searched for. -/
theorem mem_searchHits_iff (derived : CachedMail → MsgView)
    (context : SearchContext) (notEmpty : elements ≠ [])
    (uidMode : Bool) {session : ImapSession} (small : session.mails.length < 2 ^ 32)
    (uidsSmall : ∀ uid ∈ session.uids, uid < 2 ^ 32) (index : Nat) :
    index ∈ searchHits casing derived context (searchArgs elements uidMode) session ↔ index < session.mails.length ∧
        ∃ element ∈ elements, element.searched (numberAt session.uids uidMode index) := by
  rw [searchHits, List.mem_filter, List.mem_range, and_congr_right_iff]
  intro inside
  rw [List.getElem?_eq_getElem inside, parse_searchArgs casing notEmpty]
  cases uidMode with
  | false => exact contains_parsed_iff elements (by omega)
  | true =>
    have uidEq : numberAt session.uids true index = session.mails[index].uid := by
      simp [numberAt, ImapSession.uids, inside]
    rw [uidEq]
    exact contains_parsed_iff elements (uidsSmall _ (List.mem_map_of_mem (List.getElem_mem inside)))

end Search

/-! ## What FETCH reads -/

section Fetch

variable {uids : List Nat} {uidMode : Bool}

theorem SeqNumber.parseSeqNum_print (last : Nat) : parseSeqNum number.print last = number.value last := by
  cases number with
  | number value positive fits =>
    rw [parseSeqNum, SeqNumber.print, if_neg (decimal_ne_star value), Text.parseUnsigned_decimal fits]
    rfl
  | star => rfl

/-- The index of a number is the index of the message that has it. -/
theorem seqToIndex_eq_some_iff (distinct : uids.Nodup) {number index : Nat} :
    seqToIndex uids uidMode number = some index ↔ index < uids.length ∧ numberAt uids uidMode index = number := by
  cases uidMode with
  | false =>
    rw [seqToIndex, numberAt, if_neg Bool.false_ne_true, if_neg Bool.false_ne_true]
    split <;> simp <;> omega
  | true =>
    rw [seqToIndex, numberAt, if_pos rfl, if_pos rfl, List.findIdx?_eq_some_iff_getElem]
    constructor
    · rintro ⟨inside, found, -⟩
      exact ⟨inside, by simpa [inside] using found⟩
    · rintro ⟨inside, found⟩
      have here : uids[index] = number := by simpa [inside] using found
      refine ⟨inside, by simpa using here, fun earlier before => ?_⟩
      have different : uids[earlier] ≠ uids[index] := by
        intro same
        exact absurd (distinct.getElem_inj_iff.mp same) (by omega)
      simpa [here] using different

/-- An element picks the messages it is fetched for. -/
theorem mem_resolvePart_iff (distinct : uids.Nodup) (element : SeqElement) {last index : Nat} :
    index ∈ resolvePart uids uidMode last element.print ↔
      index < uids.length ∧ element.fetched last (numberAt uids uidMode index) := by
  cases element with
  | one number =>
    rw [SeqElement.print, resolvePart, Text.splitOnce_eq_none number.no_colon,
      SeqNumber.parseSeqNum_print, Option.mem_toList,
      seqToIndex_eq_some_iff distinct, SeqElement.fetched]
  | range first second =>
    rw [SeqElement.print, resolvePart, Text.splitOnce_append first.no_colon]
    simp only [SeqNumber.parseSeqNum_print, List.mem_filterMap, List.mem_range'_1,
      seqToIndex_eq_some_iff distinct, SeqElement.fetched]
    constructor
    · rintro ⟨number, ⟨low, high⟩, inside, rfl⟩
      exact ⟨inside, low, by omega⟩
    · rintro ⟨inside, low, high⟩
      exact ⟨_, ⟨low, by omega⟩, inside, rfl⟩

/-- FETCH picks the messages some element is fetched for. -/
theorem mem_resolveSequenceSet_iff (distinct : uids.Nodup)
    (notEmpty : elements ≠ []) (index : Nat) : index ∈ resolveSequenceSet uids (printElements elements) uidMode ↔
      index < uids.length ∧ ∃ element ∈ elements,
        element.fetched (lastNumber uids uidMode) (numberAt uids uidMode index) := by
  have trimmed : ∀ element : SeqElement, Text.trim element.print = element.print := by
    intro element
    refine Text.trim_eq_self fun char mem => ?_
    rcases SeqElement.mem_print mem with (digit | rfl) | rfl
    · have bounds := Text.toNat_of_isDigit digit
      simp only [Text.isWhitespace, Bool.or_eq_false_iff, Bool.and_eq_false_iff, decide_eq_false_iff_not,
        beq_eq_false_iff_ne]
      omega
    · decide
    · decide
  simp only [resolveSequenceSet, mem_sortDedup, splitOn_printElements notEmpty, List.mem_flatMap,
    List.mem_map, exists_exists_and_eq_and, trimmed, mem_resolvePart_iff distinct]
  constructor
  · rintro ⟨element, mem, inside, picks⟩
    exact ⟨inside, element, mem, picks⟩
  · rintro ⟨inside, element, mem, picks⟩
    exact ⟨element, mem, inside, picks⟩

theorem lt_of_seqToIndex {number index : Nat} (found : seqToIndex uids uidMode number = some index) :
    index < uids.length := by
  unfold seqToIndex at found
  split at found
  · exact (List.findIdx?_eq_some_iff_getElem.mp found).1
  · split at found
    · cases found
      omega
    · exact absurd found.symm (Option.some_ne_none index)

/-- Whatever the text of a set, it stands for places of the view. -/
theorem lt_of_mem_resolveSequenceSet {set : Text} {index : Nat}
    (mem : index ∈ resolveSequenceSet uids set uidMode) : index < uids.length := by
  rw [resolveSequenceSet, mem_sortDedup, List.mem_flatMap] at mem
  obtain ⟨part, -, mem⟩ := mem
  unfold resolvePart at mem
  split at mem
  · obtain ⟨number, -, found⟩ := List.mem_filterMap.mp mem
    exact lt_of_seqToIndex found
  · exact lt_of_seqToIndex (Option.mem_toList.mp mem)

/-- The places of a set ascend, each of them once. -/
theorem resolveSequenceSet_ascending (set : Text) : (resolveSequenceSet uids set uidMode).Pairwise (· < ·) :=
  sortDedup_ascending _

end Fetch

/-! ## Where the two agree -/

/-- The UIDs of the view ascend, and its numbers fit the `u32`s they are kept in. -/
structure ImapSession.Numbered (session : ImapSession) : Prop where
  ascending : session.uids.Pairwise (· < ·)
  uids_fit : ∀ uid ∈ session.uids, uid < 2 ^ 32
  count_fits : session.mails.length < 2 ^ 32

namespace SeqElement

variable {last number : Nat}

theorem missed_iff (bounded : number ≤ last) :
    element.missed last number ↔ element.fetched last number ∧ ¬ element.searched number := by
  match element with
  | .one (.number _ _ _) => simp [missed, fetched, searched, SeqNumber.value]
  | .one .star => simp [missed, searched]
  | .range (.number _ _ _) (.number _ _ _) =>
    simp only [missed, fetched, searched, SeqNumber.value]
    tauto
  | .range (.number first _ _) .star =>
    simp only [missed, fetched, searched, SeqNumber.value]
    omega
  | .range .star (.number second _ _) =>
    simp only [missed, fetched, searched, SeqNumber.value]
    omega
  | .range .star .star => simp [missed, searched]

theorem extra_iff (bounded : number ≤ last) :
    element.extra last number ↔ element.searched number ∧ ¬ element.fetched last number := by
  match element with
  | .one (.number _ _ _) => simp [extra, fetched, searched, SeqNumber.value]
  | .one .star =>
    simp only [extra, fetched, searched, SeqNumber.value, true_and]
    omega
  | .range (.number _ _ _) (.number _ _ _) =>
    simp only [extra, fetched, searched, SeqNumber.value]
    tauto
  | .range (.number first _ _) .star =>
    simp only [extra, fetched, searched, SeqNumber.value, false_iff]
    omega
  | .range .star (.number second _ _) =>
    simp only [extra, fetched, searched, SeqNumber.value]
    omega
  | .range .star .star =>
    simp only [extra, fetched, searched, SeqNumber.value, true_and]
    omega

end SeqElement

/-- What an element with `*` gets wrong about the message, another element gets
right: a message missed is searched by another, one too many is fetched by
another. -/
def MadeUp (elements : List SeqElement) (last number : Nat) : Prop :=
  ((∃ element ∈ elements, element.missed last number) → ∃ other ∈ elements, other.searched number) ∧
    ((∃ element ∈ elements, element.extra last number) → ∃ other ∈ elements, other.fetched last number)

/-- The two readings agree on a message exactly when the differences are made up
for. -/
theorem madeUp_iff (elements : List SeqElement) {last number : Nat} (bounded : number ≤ last) :
    MadeUp elements last number ↔ ((∃ element ∈ elements, element.searched number) ↔
        ∃ element ∈ elements, element.fetched last number) := by
  constructor
  · rintro ⟨missed, extra⟩
    constructor
    · rintro ⟨element, mem, searched⟩
      by_cases fetched : element.fetched last number
      · exact ⟨element, mem, fetched⟩
      · exact extra ⟨element, mem, (element.extra_iff bounded).mpr ⟨searched, fetched⟩⟩
    · rintro ⟨element, mem, fetched⟩
      by_cases searched : element.searched number
      · exact ⟨element, mem, searched⟩
      · exact missed ⟨element, mem, (element.missed_iff bounded).mpr ⟨fetched, searched⟩⟩
  · intro agree
    constructor
    · rintro ⟨element, mem, missed⟩
      exact agree.mpr ⟨element, mem, ((element.missed_iff bounded).mp missed).1⟩
    · rintro ⟨element, mem, extra⟩
      exact agree.mp ⟨element, mem, ((element.extra_iff bounded).mp extra).1⟩

theorem numberAt_le_lastNumber {session : ImapSession} (numbered : session.Numbered) (uidMode : Bool)
    {index : Nat} (inside : index < session.mails.length) :
    numberAt session.uids uidMode index ≤ lastNumber session.uids uidMode := by
  have length : session.uids.length = session.mails.length := List.length_map _
  cases uidMode with
  | false =>
    rw [numberAt, lastNumber, if_neg Bool.false_ne_true, if_neg Bool.false_ne_true, length,
      Nat.mod_eq_of_lt numbered.count_fits]
    exact inside
  | true =>
    have mem : session.uids.getD index 0 ∈ session.uids := by
      rw [List.getD_eq_getElem?_getD, List.getElem?_eq_getElem (length ▸ inside), Option.getD_some]
      exact List.getElem_mem _
    rw [numberAt, lastNumber, if_pos rfl, if_pos rfl]
    cases largest : session.uids.max? with
    | none =>
      rw [List.max?_eq_none_iff] at largest
      rw [largest] at mem
      exact absurd mem List.not_mem_nil
    | some value => exact (List.max?_eq_some_iff.mp largest).2 _ mem

theorem searchHits_ascending (derived : CachedMail → MsgView)
    (context : SearchContext) (args : Text) (session : ImapSession) :
    (searchHits casing derived context args session).Pairwise (· < ·) :=
  List.pairwise_lt_range.sublist List.filter_sublist

/-- SEARCH and FETCH of one set pick the same messages exactly when, for every
message of the view, the other elements make up for what `*` gets wrong. -/
theorem searchHits_eq_picked_iff (casing : Casing) (derived : CachedMail → MsgView)
    (context : SearchContext) (elements : List SeqElement) (notEmpty : elements ≠ [])
    (uidMode : Bool) (session : ImapSession) (numbered : session.Numbered) :
    searchHits casing derived context (searchArgs elements uidMode) session =
        session.picked (printElements elements) uidMode ↔
      ∀ index < session.mails.length,
        MadeUp elements (lastNumber session.uids uidMode) (numberAt session.uids uidMode index) := by
  have length : session.uids.length = session.mails.length := List.length_map _
  have distinct : session.uids.Nodup := numbered.ascending.imp fun less => ne_of_lt less
  have hits := mem_searchHits_iff casing derived context notEmpty uidMode numbered.count_fits
    numbered.uids_fit
  have picks : ∀ index, index ∈ resolveSequenceSet session.uids (printElements elements) uidMode ↔ _ :=
    fun index => mem_resolveSequenceSet_iff distinct notEmpty index
  constructor
  · intro same index inside
    rw [madeUp_iff elements (numberAt_le_lastNumber numbered uidMode inside)]
    have both := hits index
    rw [same, ImapSession.picked, picks index, length] at both
    exact ⟨fun searched => (both.mpr ⟨inside, searched⟩).2, fun fetched => (both.mp ⟨inside, fetched⟩).2⟩
  · intro madeUp
    refine (searchHits_ascending ..).eq_of_mem_iff (sortDedup_ascending _) fun index => ?_
    rw [hits index]
    refine Iff.trans ?_ (picks index).symm
    rw [length, and_congr_right_iff]
    intro inside
    exact (madeUp_iff elements (numberAt_le_lastNumber numbered uidMode inside)).mp (madeUp index inside)

/-- A view of two messages with the UIDs 1 and 2. -/
def twoMessages : ImapSession :=
  sampleSession (Events.sampleFolder "inbox" "entries")
    [sampleCached "mail1" 1 false, sampleCached "mail2" 2 false]

/-- Nothing but the numbers of a message. -/
def blankView (_ : CachedMail) : MsgView :=
  ⟨0, 0, "", [], [], [], [], [], [], 0, 0, false, false, 0⟩

theorem searchHits_eq_picked_iff_open : searchHits .ascii blankView ⟨.empty⟩
        (searchArgs [.range (.number 2 (by decide) (by decide)) .star] true) twoMessages =
      twoMessages.picked (printElements [.range (.number 2 (by decide) (by decide)) .star]) true := by
  refine (searchHits_eq_picked_iff .ascii blankView ⟨.empty⟩ _ (by simp) true twoMessages
    ⟨by decide, by decide, by decide⟩).mpr fun index inside => ⟨?_, ?_⟩
  · simp [SeqElement.missed, lastNumber, twoMessages, ImapSession.uids, sampleSession, sampleCached]
  · simp [SeqElement.extra]

/-- `SEARCH *` finds both messages of the view, `FETCH *` picks the last one. -/
theorem searchHits_star_ne_picked :
    searchHits .ascii blankView ⟨.empty⟩ (searchArgs [.one .star] false) twoMessages = [0, 1] ∧
      twoMessages.picked (printElements [.one .star]) false = [1] := by
  decide +kernel

end TutaBridge.Imap
