import TutaBridge.Imap.Names

/-!
# What modified UTF-7 is

A name on the wire is made of printable ASCII and of shift sequences. `decode` looks at the shift
sequences alone: any other character between them is read, each of its bytes as a character.
-/

namespace TutaBridge.Imap.Utf7

open TutaBridge.Std

/-- A character that stands for itself, or what stands between `&` and `-`. -/
inductive Piece where
  | direct (char : Char)
  | shift (chunk : Text)
deriving DecidableEq, Repr

def Piece.write : Piece → Text
  | .direct char => [char]
  | .shift chunk => '&' :: (chunk ++ ['-'])

/-- The chunk of `&` itself, or the base64 of a text. -/
def IsShift (chunk : Text) : Prop :=
  chunk = [] ∨ ∃ text, text ≠ [] ∧
    chunk = (Base64.encode modifiedB64 (Utf16.toBigEndian (Utf16.encode text))).toList

def Piece.IsValid : Piece → Prop
  | .direct char => isDirect char = true
  | .shift chunk => IsShift chunk

/-- Modified UTF-7. -/
def IsModifiedUtf7 (input : Text) : Prop :=
  ∃ pieces : List Piece, input = pieces.flatMap Piece.write ∧ ∀ piece ∈ pieces, piece.IsValid

/-- The pieces of an input whose shift sequences are closed, with the chunk read so far. -/
def piecesFrom : (chunk : Option Text) → Text → Option (List Piece)
  | none, [] => some []
  | some _, [] => none
  | none, char :: rest =>
    if char = '&' then piecesFrom (some []) rest
    else (piecesFrom none rest).map (.direct char :: ·)
  | some chunk, char :: rest =>
    if char = '-' then (piecesFrom none rest).map (.shift chunk :: ·)
    else piecesFrom (some (chunk ++ [char])) rest

/-- The pieces of an input. -/
def pieces (input : Text) : Option (List Piece) := piecesFrom none input

/-! ## Shift sequences -/

theorem not_mem_of_isShift {chunk : Text} (isShift : IsShift chunk) : '-' ∉ chunk := by
  rcases isShift with rfl | ⟨text, -, rfl⟩
  · exact List.not_mem_nil
  · intro mem
    exact absurd (Base64.mem_alphabet_of_mem_encode length_modifiedB64 mem) (by decide)

/-- A chunk is read just where it is one. -/
theorem isSome_decodeChunk_iff {chunk : Text} : (decodeChunk chunk).isSome = true ↔ IsShift chunk := by
  constructor
  · intro read
    by_cases isAmpersand : chunk = []
    · exact .inl isAmpersand
    · obtain ⟨text, isText⟩ := Option.isSome_iff_exists.mp read
      rw [decodeChunk, if_neg isAmpersand, Option.bind_eq_some_iff] at isText
      obtain ⟨bytes, isBytes, isText⟩ := isText
      split at isText
      next => cases isText
      next even =>
        have units := Utf16.encode_decode isText
        have back : (Base64.encode modifiedB64 bytes).toList = chunk := by
          rw [Base64.encode_decode length_modifiedB64 isBytes, String.toList_ofList]
        have isChunk : chunk = (Base64.encode modifiedB64 (Utf16.toBigEndian (Utf16.encode text))).toList := by
          rw [units, Utf16.toBigEndian_ofBigEndian (not_not.mp even), back]
        refine .inr ⟨text, ?_, isChunk⟩
        rintro rfl
        exact isAmpersand isChunk
  · rintro (rfl | ⟨text, notEmpty, rfl⟩)
    · rfl
    · rw [decodeChunk_encode notEmpty, Option.isSome_some]

/-! ## Pieces -/

theorem piecesFrom_chunk {chunk : Text} (closing : '-' ∉ chunk) (before rest : Text) :
    piecesFrom (some before) (chunk ++ '-' :: rest) = (piecesFrom none rest).map (.shift (before ++ chunk) :: ·) := by
  induction chunk generalizing before with
  | nil => rw [List.nil_append, piecesFrom, if_pos rfl, List.append_nil]
  | cons head later ih =>
    obtain ⟨different, absent⟩ := not_or.mp (mt List.mem_cons.mpr closing)
    rw [List.cons_append, piecesFrom, if_neg (Ne.symm different), ih absent,
      List.append_assoc, List.singleton_append]

/-- What valid pieces write is split into them again. -/
theorem pieces_write {written : List Piece} (valid : ∀ piece ∈ written, piece.IsValid) :
    pieces (written.flatMap Piece.write) = some written := by
  induction written with
  | nil => rfl
  | cons piece rest ih =>
    obtain ⟨first, others⟩ := List.forall_mem_cons.mp valid
    have behind := ih others
    rw [pieces] at behind
    rw [pieces, List.flatMap_cons]
    cases piece with
    | direct char =>
      have noShift : char ≠ '&' := by
        rintro rfl
        have noDirect : isDirect '&' = false := by decide
        exact Bool.false_ne_true (noDirect.symm.trans first)
      rw [Piece.write, List.singleton_append, piecesFrom, if_neg noShift, behind, Option.map_some]
    | shift chunk =>
      rw [Piece.write, List.cons_append, List.append_assoc, List.singleton_append, piecesFrom, if_pos rfl,
        piecesFrom_chunk (not_mem_of_isShift first), behind, Option.map_some, List.nil_append]

/-- The pieces of an input write it, with what was read of a chunk before it. -/
theorem write_piecesFrom {chunk : Option Text} {input : Text} {read : List Piece}
    (isRead : piecesFrom chunk input = some read) :
    (chunk.elim [] fun chunk => '&' :: chunk) ++ input = read.flatMap Piece.write := by
  induction input generalizing chunk read with
  | nil =>
    cases chunk with
    | none =>
      cases isRead
      rfl
    | some chunk => cases isRead
  | cons char rest ih =>
    cases chunk with
    | none =>
      rw [piecesFrom] at isRead
      split at isRead
      next isAmpersand =>
        subst isAmpersand
        exact ih isRead
      next =>
        obtain ⟨later, isLater, rfl⟩ := Option.map_eq_some_iff.mp isRead
        rw [List.flatMap_cons, ← ih isLater]
        rfl
    | some chunk =>
      rw [piecesFrom] at isRead
      split at isRead
      next isClosing =>
        obtain ⟨later, isLater, rfl⟩ := Option.map_eq_some_iff.mp isRead
        rw [List.flatMap_cons, ← ih isLater, isClosing]
        simp [Piece.write]
      next =>
        rw [← ih isRead]
        simp

/-- An input is read just where its shift sequences are closed, and each is one. -/
theorem isSome_decodeFrom_iff {chunk : Option Text} {input : Text} : (decodeFrom chunk input).isSome = true ↔
      ∃ read, piecesFrom chunk input = some read ∧ ∀ chunk, .shift chunk ∈ read → IsShift chunk := by
  induction input generalizing chunk with
  | nil =>
    cases chunk with
    | none => simp [decodeFrom, piecesFrom]
    | some chunk => simp [decodeFrom, piecesFrom]
  | cons char rest ih =>
    cases chunk with
    | none =>
      rw [decodeFrom, piecesFrom]
      split
      next => exact ih
      next =>
        rw [Option.isSome_map, ih]
        simp [Option.map_eq_some_iff]
    | some chunk =>
      rw [decodeFrom, piecesFrom]
      split
      next =>
        have both : ((decodeChunk chunk).bind fun run => (decodeFrom none rest).map (run ++ ·)).isSome = true ↔
            (decodeChunk chunk).isSome = true ∧ (decodeFrom none rest).isSome = true := by
          cases decodeChunk chunk <;> simp
        rw [both, isSome_decodeChunk_iff, ih]
        constructor
        · rintro ⟨isShift, read, isRead, areShifts⟩
          refine ⟨.shift chunk :: read, by rw [isRead, Option.map_some], fun other mem => ?_⟩
          rcases List.mem_cons.mp mem with same | inRead
          · cases same
            exact isShift
          · exact areShifts other inRead
        · rintro ⟨read, isRead, areShifts⟩
          obtain ⟨later, isLater, rfl⟩ := Option.map_eq_some_iff.mp isRead
          exact ⟨areShifts chunk List.mem_cons_self, later, isLater,
            fun other mem => areShifts other (List.mem_cons_of_mem _ mem)⟩
      next => exact ih

/-- An input is modified UTF-7 just where its pieces are valid. -/
theorem isModifiedUtf7_iff {input : Text} :
    IsModifiedUtf7 input ↔ ∃ read, pieces input = some read ∧ ∀ piece ∈ read, piece.IsValid := by
  constructor
  · rintro ⟨written, rfl, valid⟩
    exact ⟨written, pieces_write valid, valid⟩
  · rintro ⟨read, isRead, valid⟩
    exact ⟨read, write_piecesFrom isRead, valid⟩

/-! ## What is refused -/

/-- An input is read just where it is modified UTF-7, unless its shift sequences are all read and
a character between them is not printable ASCII. -/
theorem decode_isSome_iff_isModifiedUtf7_iff (input : Text) : ((decode input).isSome = true ↔ IsModifiedUtf7 input) ↔
      ∀ read, pieces input = some read → (∀ chunk, .shift chunk ∈ read → IsShift chunk) →
        ∀ char, .direct char ∈ read → isDirect char = true := by
  rw [decode, isSome_decodeFrom_iff, isModifiedUtf7_iff]
  constructor
  · intro decides read isRead areShifts char mem
    obtain ⟨other, isOther, valid⟩ := decides.mp ⟨read, isRead, areShifts⟩
    obtain rfl : read = other := Option.some.inj (isRead.symm.trans isOther)
    exact valid (.direct char) mem
  · intro direct
    constructor
    · rintro ⟨read, isRead, areShifts⟩
      refine ⟨read, isRead, fun piece mem => ?_⟩
      cases piece with
      | direct char => exact direct read isRead areShifts char mem
      | shift chunk => exact areShifts chunk mem
    · rintro ⟨read, isRead, valid⟩
      exact ⟨read, isRead, fun chunk mem => valid (.shift chunk) mem⟩

/-- A raw name is not refused: its bytes are read as characters, and the folder is not found. -/
theorem decode_raw_name : ¬((decode ['é']).isSome = true ↔ IsModifiedUtf7 ['é']) ∧
      decode ['é'] = some ['Ã', '©'] ∧ decodeName ['é'] ≠ ['é'] := by
  have read : decode ['é'] = some ['Ã', '©'] := by decide
  refine ⟨?_, read, ?_⟩
  · intro decides
    have modified := decides.mp (by rw [read, Option.isSome_some])
    obtain ⟨pieces, isRead, valid⟩ := isModifiedUtf7_iff.mp modified
    obtain rfl : [Piece.direct 'é'] = pieces := Option.some.inj isRead
    exact absurd (valid (.direct 'é') List.mem_cons_self) (by unfold Piece.IsValid; decide)
  · rw [decodeName, read]
    decide

end TutaBridge.Imap.Utf7
