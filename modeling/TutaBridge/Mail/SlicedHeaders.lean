import TutaBridge.Mail.AddressLists
import TutaBridge.Mail.HeaderWords
import TutaBridge.Std.Recursion
import TutaBridge.Std.Slices

/-!
# Headers by their slices

The functions that read headers, as they take slices of the text: a byte position that is found in
a text and slices of it there. Each of them is `none` where a slice panics. The positions are those
of ASCII marks in the text that is sliced, so none of them panics, and they read what they read
without positions.
-/

namespace TutaBridge.Mail

open TutaBridge.Std TutaBridge.Std.Text TutaBridge.Std.Recursion

/-! ## The header section -/

/-- `header_section`. -/
def headerSection? (raw : Text) : Option Text :=
  match (find ['\r', '\n', '\r', '\n'] raw).or (find ['\n', '\n'] raw) with
  | none => some raw
  | some position => sliceTo? position raw

/-- `split_headers_body`. -/
def splitHeadersBody? (raw : Text) : Option (Text × Text) := do
  let headers ← headerSection? raw
  let later ← sliceFrom? (byteLength headers) raw
  let body :=
    if ['\r', '\n', '\r', '\n'].isPrefixOf later then later.drop 4
    else if ['\n', '\n'].isPrefixOf later then later.drop 2
    else []
  return (headers, body)

theorem headerSection_prefix (raw : Text) : headerSection raw <+: raw := by
  unfold headerSection
  cases found : (before? ['\r', '\n', '\r', '\n'] raw).or (before? ['\n', '\n'] raw) with
  | none => exact List.prefix_refl raw
  | some front =>
    rcases Option.or_eq_some_iff.mp found with isFront | ⟨-, isFront⟩ <;>
      exact (List.prefix_append _ _).trans (prefix_of_before? isFront)

theorem headerSection?_eq (raw : Text) : headerSection? raw = some (headerSection raw) := by
  unfold headerSection? headerSection find
  rw [← Option.map_or]
  cases found : (before? ['\r', '\n', '\r', '\n'] raw).or (before? ['\n', '\n'] raw) with
  | none => rfl
  | some front =>
    have isPrefix := headerSection_prefix raw
    rw [headerSection, found, Option.getD_some] at isPrefix
    obtain ⟨back, split⟩ := isPrefix
    exact sliceTo?_of_eq split.symm rfl

theorem splitHeadersBody?_eq (raw : Text) : splitHeadersBody? raw = some (splitHeadersBody raw) := by
  obtain ⟨back, split⟩ := headerSection_prefix raw
  have behind : raw.drop (headerSection raw).length = back :=
    (congrArg (List.drop (headerSection raw).length) split.symm).trans List.drop_left
  rw [splitHeadersBody?, headerSection?_eq]
  dsimp only [Option.bind_eq_bind, Option.bind_some]
  rw [sliceFrom?_of_eq split.symm rfl, splitHeadersBody, behind]
  rfl

/-! ## Encoded words -/

/-- The byte of two hexadecimal digits. -/
def hexOf : List UInt8 → Option UInt8
  | [first, second] => hexByte? first second
  | _ => none

/-- The loop of `decode_q_encoding`. -/
def decodeQFrom? (bytes : List UInt8) : Nat → Nat → Option (List UInt8)
  | 0, _ => some []
  | fuel + 1, position =>
    if position < bytes.length then do
      let byte ← bytes[position]?
      let escaped ←
        if byte = 61 ∧ position + 2 < bytes.length then
          (sliceBytes? (position + 1) (position + 3) bytes).map hexOf
        else some none
      match escaped with
      | some value => (decodeQFrom? bytes fuel (position + 3)).map (value :: ·)
      | none => (decodeQFrom? bytes fuel (position + 1)).map (qByte byte :: ·)
    else some []

/-- `decode_q_encoding`. -/
def decodeQEncoding? (text : Text) : Option Text :=
  (decodeQFrom? (Utf8.encode text) ((Utf8.encode text).length + 1) 0).map fun bytes =>
    (Utf8.decode bytes).getD text

theorem decodeQFrom?_eq {bytes : List UInt8} {fuel position : Nat} (enough : bytes.length < fuel + position) :
    decodeQFrom? bytes fuel position = some (decodeQBytes (bytes.drop position)) := by
  induction fuel generalizing position with
  | zero =>
    rw [decodeQFrom?, List.drop_of_length_le (by omega), decodeQBytes]
  | succ fuel ih =>
    rw [decodeQFrom?]
    cases rest : bytes.drop position with
    | nil =>
      have beyond := List.drop_eq_nil_iff.mp rest
      rw [if_neg (by omega), decodeQBytes]
    | cons byte later =>
      have isByte : bytes[position]? = some byte := by rw [← List.head?_drop, rest, List.head?_cons]
      have isLater : bytes.drop (position + 1) = later := by rw [← List.tail_drop, rest, List.tail_cons]
      have length := congrArg List.length isLater
      have inside : position < bytes.length := (List.getElem?_eq_some_iff.mp isByte).1
      have one := @ih (position + 1) (by omega)
      rw [List.length_drop] at length
      rw [isLater] at one
      rw [if_pos inside, isByte, one]
      dsimp only [Option.bind_eq_bind, Option.bind_some]
      rcases later with - | ⟨first, - | ⟨second, others⟩⟩
      · rw [List.length_nil] at length
        rw [if_neg (by omega)]
        rfl
      · rw [List.length_singleton] at length
        rw [if_neg (by omega)]
        rfl
      · have isOthers : bytes.drop (position + 3) = others := by
          rw [← List.drop_drop (i := 2) (j := position + 1), isLater]
          rfl
        have three := @ih (position + 3) (by omega)
        have slice : sliceBytes? (position + 1) (position + 3) bytes = some [first, second] := by
          rw [sliceBytes?_of_le (by omega) (by simp only [List.length_cons] at length; omega), isLater]
          simp
        rw [isOthers] at three
        rw [three, slice, decodeQBytes, Option.map_some, hexOf]
        simp only [List.length_cons] at length
        by_cases isEscape : byte = 61
        · rw [if_pos ⟨isEscape, by omega⟩, if_pos isEscape]
          cases hexByte? first second <;> rfl
        · rw [if_neg fun both => isEscape both.1, if_neg isEscape]
          rfl

theorem decodeQEncoding?_eq (text : Text) : decodeQEncoding? text = some (decodeQEncoding text) := by
  rw [decodeQEncoding?, decodeQFrom?_eq (by omega), List.drop_zero, Option.map_some, decodeQEncoding]

/-- The text of an encoded word in its encoding. -/
def decodeEncoding? (casing : Casing) (encoding encoded : Text) : Option (Option Text) :=
  let encoding := casing.toUppercase encoding
  if encoding = ['B'] then some ((Base64.decodePadded Base64.standard encoded).bind Utf8.decode)
  else if encoding = ['Q'] then (decodeQEncoding? encoded).map some
  else some none

/-- The four parts of an encoded word without the last, which begins with `=`. -/
def wordParts (text : Text) : Option (Text × Text × Text) := do
  let (charset, text) ← splitOnce '?' text
  let (encoding, text) ← splitOnce '?' text
  let (encoded, text) ← splitOnce '?' text
  if text.head? = some '=' then some (charset, encoding, encoded) else none

/-- An encoded word behind its `=?`, and what stands behind the word. -/
def encodedWord? (casing : Casing) (text : Text) : Option (Option (Text × Text)) :=
  match wordParts text with
  | none => some none
  | some (charset, encoding, encoded) => do
      let endMarker := byteLength charset + byteLength encoding + byteLength encoded + 2
      match ← decodeEncoding? casing encoding encoded with
      | none => return none
      | some decoded =>
        let later ← sliceFrom? (endMarker + 2) text
        return some (decoded, later)

/-- The loop of `decode_header_value`. -/
def decodeWords? (casing : Casing) : Nat → Text → Option Text
  | 0, remaining => some remaining
  | fuel + 1, remaining =>
    match find ['=', '?'] remaining with
    | none => some remaining
    | some start => do
        let front ← sliceTo? start remaining
        let behind ← sliceFrom? (start + 2) remaining
        match ← encodedWord? casing behind with
        | some (decoded, later) =>
          let rest ← decodeWords? casing fuel (betweenWords later)
          return front ++ (decoded ++ rest)
        | none =>
          let rest ← decodeWords? casing fuel behind
          return front ++ '=' :: '?' :: rest

/-- `decode_header_value`. -/
def decodeHeaderValue? (casing : Casing) (text : Text) : Option Text :=
  let text := trim text
  if contains text ['=', '?'] then decodeWords? casing (text.length + 1) text else some text

variable (casing : Casing)

theorem decodeEncoding?_eq (encoding encoded : Text) :
    decodeEncoding? casing encoding encoded = some (decodeEncoding casing encoding encoded) := by
  unfold decodeEncoding? decodeEncoding
  dsimp only
  rw [decodeQEncoding?_eq]
  split
  · rfl
  · split <;> rfl

theorem encodedWord?_eq (text : Text) : encodedWord? casing text = some (encodedWord casing text) := by
  unfold encodedWord? wordParts encodedWord
  simp only [Option.bind_eq_bind]
  cases one : splitOnce '?' text with
  | none => rfl
  | some first =>
    obtain ⟨charset, behindCharset⟩ := first
    dsimp only [Option.bind_some]
    cases two : splitOnce '?' behindCharset with
    | none => rfl
    | some second =>
      obtain ⟨encoding, behindEncoding⟩ := second
      dsimp only [Option.bind_some]
      cases three : splitOnce '?' behindEncoding with
      | none => rfl
      | some third =>
        obtain ⟨encoded, last⟩ := third
        dsimp only [Option.bind_some]
        by_cases marked : last.head? = some '='
        · obtain ⟨rest, rfl⟩ := List.head?_eq_some_iff.mp marked
          have split : text = (charset ++ '?' :: (encoding ++ '?' :: (encoded ++ ['?', '=']))) ++ rest := by
            rw [(eq_of_splitOnce one).2, (eq_of_splitOnce two).2, (eq_of_splitOnce three).2]
            simp
          have position : byteLength (charset ++ '?' :: (encoding ++ '?' :: (encoded ++ ['?', '=']))) =
              byteLength charset + byteLength encoding + byteLength encoded + 2 + 2 := by
            have one : '?'.utf8Size = 1 ∧ '='.utf8Size = 1 := by decide
            simp only [byteLength_append, byteLength_cons, byteLength_nil, one.1, one.2]
            omega
          rw [if_pos marked, if_pos marked, List.tail_cons]
          dsimp only
          rw [decodeEncoding?_eq, Option.bind_some, sliceFrom?_of_eq split position]
          cases decodeEncoding casing encoding encoded <;> rfl
        · rw [if_neg marked, if_neg marked]

theorem decodeWords?_eq {fuel : Nat} {text : Text} (enough : text.length < fuel) :
    decodeWords? casing fuel text = some (decodeWords casing text) := by
  induction fuel generalizing text with
  | zero => exact absurd enough (Nat.not_lt_zero _)
  | succ fuel ih =>
    rw [decodeWords?]
    cases found : find ['=', '?'] text with
    | none =>
      have noWord : contains text ['=', '?'] = false := by
        rw [← Bool.not_eq_true, contains_iff]
        exact find_eq_none_iff.mp found
      have plain := @decodeWords_plain casing text [] noWord (by decide)
      rw [List.append_nil, decodeWords, List.append_nil] at plain
      rw [plain]
    | some start =>
      obtain ⟨front, behind, rfl, rfl, isFront⟩ := eq_of_find found
      have noWord : contains front ['=', '?'] = false := by
        rw [← Bool.not_eq_true, contains_iff]
        exact fun occurs => not_infix_of_before? (by decide) isFront
          (occurs.trans (List.prefix_append _ _).isInfix)
      have plain := @decodeWords_plain casing front ('=' :: '?' :: behind) noWord (by simp)
      have isWhole : front ++ ['=', '?'] ++ behind = front ++ '=' :: '?' :: behind := by simp
      have isBehind : byteLength (front ++ ['=', '?']) = byteLength front + 2 := by
        rw [byteLength_append]
        rfl
      rw [isWhole, plain]
      dsimp only
      rw [sliceTo?_append, ← isWhole, sliceFrom?_of_eq rfl isBehind]
      simp only [Option.bind_eq_bind, Option.bind_some]
      rw [encodedWord?_eq]
      simp only [isWhole, List.length_append, List.length_cons] at enough
      cases isWord : encodedWord casing behind with
      | none =>
        rw [Option.bind_some]
        dsimp only
        rw [ih (by omega), Option.bind_some, decodeWords_marks isWord]
        rfl
      | some word =>
        obtain ⟨decoded, later⟩ := word
        have shorter := length_lt_of_encodedWord isWord
        have notLonger := length_betweenWords_le later
        rw [Option.bind_some]
        dsimp only
        rw [ih (by omega), Option.bind_some, decodeWords_word isWord]
        rfl

theorem decodeHeaderValue?_eq (text : Text) :
    decodeHeaderValue? casing text = some (decodeHeaderValue casing text) := by
  unfold decodeHeaderValue? decodeHeaderValue
  dsimp only
  rw [decodeWords?_eq casing (Nat.lt_succ_self _)]
  split <;> rfl

/-! ## Addresses -/

/-- `parse_address_single`. -/
def parseMailbox? (raw : Text) : Option (Text × Text) :=
  let raw := trim raw
  match rfind '<' raw with
  | none => some ([], raw)
  | some first => do
      let opened ← sliceFrom? first raw
      match find ['>'] opened with
      | none => return ([], raw)
      | some last =>
        let address ← slice? (first + 1) (first + last) raw
        let front ← sliceTo? first raw
        let name ← decodeHeaderValue? casing (unquote (trim front))
        return (name, trim address)

/-- `parse_address_list`. -/
def parseMailboxes? (raw : Text) : Option (List (Text × Text)) :=
  (addressEntries raw).mapM (parseMailbox? casing)

/-- The list of `address_headers_of` under a name. -/
def addressList? (headers : List (Text × Text)) (name : String) : Option (List (Text × Text)) :=
  match getHeader headers name with
  | none => some []
  | some raw => parseMailboxes? casing raw

/-- `address_headers_of`. -/
def addressHeadersOf? (headers : List (Text × Text)) : Option AddressHeaders := do
  return {
    recipients := ← addressList? casing headers "to"
    cc := ← addressList? casing headers "cc"
    bcc := ← addressList? casing headers "bcc"
    replyTo := ← addressList? casing headers "reply-to" }

/-- `parse_address_headers`. -/
def parseAddressHeaders? (raw : Text) : Option AddressHeaders := do
  addressHeadersOf? casing (parseHeaders casing (← headerSection? raw))

theorem parseMailbox?_eq (raw : Text) : parseMailbox? casing raw = some (parseMailbox casing raw) := by
  unfold parseMailbox? parseMailbox
  dsimp only
  by_cases opens : '<' ∈ trim raw
  · obtain ⟨front, back, split, absent⟩ := exists_last opens
    have plain : ∀ char ∈ back, decide (char ≠ '<') = true := fun char mem =>
      decide_eq_true fun same => absent (same ▸ mem)
    rw [if_pos opens, split, rfind_append absent, rtakeWhile_append_cons (by simp) plain,
      rdropWhile_append_cons (by simp) plain, List.dropLast_concat]
    dsimp only
    rw [sliceFrom?_append]
    simp only [Option.bind_eq_bind, Option.bind_some]
    by_cases closes : '>' ∈ back
    · obtain ⟨address, behind, rfl, notInside⟩ := exists_first closes
      have isLast := @find_char '>' ('<' :: address) (by simp [notInside]) behind
      rw [List.cons_append] at isLast
      have slice : slice? (byteLength front + 1) (byteLength front + byteLength ('<' :: address))
          (front ++ '<' :: (address ++ '>' :: behind)) = some address := by
        have size : '<'.utf8Size = 1 := by decide
        have split : front ++ '<' :: (address ++ '>' :: behind) =
            front ++ ['<'] ++ address ++ '>' :: behind := by simp
        refine slice?_of_eq split ?_ ?_
        · simp only [byteLength_append, byteLength_cons, byteLength_nil, size]
        · simp only [byteLength_append, byteLength_cons, byteLength_nil, size]
          omega
      rw [isLast, splitOnce_append notInside]
      dsimp only
      rw [slice, sliceTo?_append, Option.bind_some, Option.bind_some, decodeHeaderValue?_eq]
      rfl
    · rw [find_char_eq_none (by simp [closes]), splitOnce_eq_none closes]
      rfl
  · rw [rfind, if_neg opens, if_neg opens]

theorem addressHeadersOf?_eq (headers : List (Text × Text)) :
    addressHeadersOf? casing headers = some (addressHeadersOf casing headers) := by
  have list : ∀ name, addressList? casing headers name = some (addressList casing headers name) := by
    intro name
    unfold addressList? addressList
    cases getHeader headers name with
    | none => rfl
    | some raw => exact mapM_eq_some fun entry _ => parseMailbox?_eq casing entry
  unfold addressHeadersOf?
  rw [list, list, list, list]
  rfl

/-- Reading the address headers panics on no message. -/
theorem parseAddressHeaders?_eq (raw : Text) :
    parseAddressHeaders? casing raw = some (parseAddressHeaders casing raw) := by
  rw [parseAddressHeaders?, headerSection?_eq]
  exact addressHeadersOf?_eq casing _

/-! ## Message ids -/

/-- The loop of `msg_ids`. -/
def msgIdsFrom? : Nat → Text → Option (List Text)
  | 0, _ => some []
  | fuel + 1, rest =>
    match find ['<'] rest with
    | none => some []
    | some first => do
        let behind ← sliceFrom? (first + 1) rest
        match find ['>'] behind with
        | none => return []
        | some last =>
          let id ← slice? (first + 1) (first + 1 + last) rest
          let later ← sliceFrom? (first + 1 + last + 1) rest
          let ids ← msgIdsFrom? fuel later
          return if trim id = [] then ids else trim id :: ids

/-- `msg_ids`. -/
def msgIds? (raw : Text) : Option (List Text) := do
  let ids ← msgIdsFrom? (raw.length + 1) raw
  return if ids = [] then if trim raw = [] then [] else [trim raw] else ids

theorem msgIdsFrom_append {front : Text} (absent : '<' ∉ front) (rest : Text) :
    msgIdsFrom none (front ++ rest) = msgIdsFrom none rest := by
  induction front with
  | nil => rfl
  | cons char front ih =>
    obtain ⟨notHead, notLater⟩ := not_or.mp (mt List.mem_cons.mpr absent)
    rw [List.cons_append, msgIdsFrom, if_neg (Ne.symm notHead), ih notLater]

theorem msgIdsFrom_opened {id : Text} (absent : '>' ∉ id) (current rest : Text) :
    msgIdsFrom (some current) (id ++ rest) = msgIdsFrom (some (current ++ id)) rest := by
  induction id generalizing current with
  | nil => rw [List.nil_append, List.append_nil]
  | cons char id ih =>
    obtain ⟨notHead, notLater⟩ := not_or.mp (mt List.mem_cons.mpr absent)
    rw [List.cons_append, msgIdsFrom, if_neg (Ne.symm notHead), ih notLater,
      List.append_assoc, List.singleton_append]

theorem msgIdsFrom?_eq {fuel : Nat} {text : Text} (enough : text.length < fuel) :
    msgIdsFrom? fuel text = some (msgIdsFrom none text) := by
  induction fuel generalizing text with
  | zero => exact absurd enough (Nat.not_lt_zero _)
  | succ fuel ih =>
    have size : '<'.utf8Size = 1 ∧ '>'.utf8Size = 1 := by decide
    rw [msgIdsFrom?]
    by_cases opens : '<' ∈ text
    · obtain ⟨front, behind, rfl, absent⟩ := exists_first opens
      have isBehind : byteLength (front ++ ['<']) = byteLength front + 1 := by
        simp only [byteLength_append, byteLength_cons, byteLength_nil, size.1]
      rw [find_char absent, msgIdsFrom_append absent, msgIdsFrom, if_pos rfl]
      dsimp only
      rw [sliceFrom?_of_eq (List.append_cons front '<' behind) isBehind]
      simp only [Option.bind_eq_bind, Option.bind_some]
      by_cases closes : '>' ∈ behind
      · obtain ⟨id, later, rfl, notInside⟩ := exists_first closes
        have split : front ++ '<' :: (id ++ '>' :: later) = front ++ ['<'] ++ id ++ '>' :: later := by
          simp
        have splitLater : front ++ '<' :: (id ++ '>' :: later) =
            front ++ '<' :: (id ++ ['>']) ++ later := by simp
        have isId : slice? (byteLength front + 1) (byteLength front + 1 + byteLength id)
            (front ++ '<' :: (id ++ '>' :: later)) = some id :=
          slice?_of_eq split isBehind (by rw [isBehind])
        have isLater : sliceFrom? (byteLength front + 1 + byteLength id + 1)
            (front ++ '<' :: (id ++ '>' :: later)) = some later := by
          refine sliceFrom?_of_eq splitLater ?_
          simp only [byteLength_append, byteLength_cons, byteLength_nil, size.1, size.2]
          omega
        simp only [List.length_append, List.length_cons] at enough
        rw [find_char notInside, msgIdsFrom_opened notInside, List.nil_append, msgIdsFrom, if_pos rfl]
        dsimp only
        rw [isId, isLater, Option.bind_some, Option.bind_some, ih (by omega), Option.bind_some]
        split <;> rfl
      · have read := msgIdsFrom_opened closes [] []
        rw [List.append_nil, msgIdsFrom] at read
        rw [find_char_eq_none closes, read]
        rfl
    · have read := msgIdsFrom_append opens []
      rw [List.append_nil, msgIdsFrom] at read
      rw [find_char_eq_none opens, read]

theorem msgIds?_eq (raw : Text) : msgIds? raw = some (msgIds raw) := by
  rw [msgIds?, msgIdsFrom?_eq (Nat.lt_succ_self _)]
  rfl

end TutaBridge.Mail
