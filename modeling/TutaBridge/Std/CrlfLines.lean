import TutaBridge.Std.LineBlock

/-!
# Lines that a CRLF ends

A carriage return or a line feed alone is a character of its line like any other here: only the
two together end it. Lines are split at their endings, and a block of them that an empty line ends
is found again before any body.
-/

namespace TutaBridge.Std.Text

abbrev crlf : Text := ['\r', '\n']

/-- A line with something in it that no CRLF breaks. -/
def IsCrlfLine (line : Text) : Prop := line ≠ [] ∧ ¬crlf <:+: line

/-- Lines with a CRLF behind each. -/
def crlfLines (lines : List Text) : Text := lines.flatMap fun line => line ++ crlf

/-- The loop of `splitInclusive`, with what was read behind the last match. -/
def splitInclusiveFrom (pattern : Text) (current : Text) : Text → List Text
  | [] => if current = [] then [] else [current]
  | char :: rest =>
    if pattern.isSuffixOf (current ++ [char]) then
      (current ++ [char]) :: splitInclusiveFrom pattern [] rest
    else splitInclusiveFrom pattern (current ++ [char]) rest

/-- `str::split_inclusive` of a pattern that is not empty. -/
def splitInclusive (pattern text : Text) : List Text := splitInclusiveFrom pattern [] text

@[simp] theorem crlfLines_cons (line : Text) (lines : List Text) :
    crlfLines (line :: lines) = line ++ crlf ++ crlfLines lines := rfl

@[simp] theorem crlfLines_append (first second : List Text) :
    crlfLines (first ++ second) = crlfLines first ++ crlfLines second :=
  List.flatMap_append

/-! ## Splitting -/

/-- A line is read up to its ending. -/
theorem splitInclusiveFrom_line {current line : Text} (unbroken : ¬crlf <:+: current ++ line) (rest : Text) :
    splitInclusiveFrom crlf current (line ++ '\r' :: '\n' :: rest) =
      (current ++ line ++ crlf) :: splitInclusive crlf rest := by
  induction line generalizing current with
  | nil =>
    have noFeed : ¬crlf.isSuffixOf (current ++ ['\r']) = true := by
      rw [List.isSuffixOf_iff_suffix]
      rintro ⟨front, same⟩
      have last : front ++ ['\r'] ++ ['\n'] = current ++ ['\r'] := by
        rw [List.append_assoc]
        exact same
      cases (List.append_inj' last rfl).2
    have ends : crlf.isSuffixOf (current ++ ['\r'] ++ ['\n']) = true := by
      rw [List.isSuffixOf_iff_suffix, List.append_assoc]
      exact List.suffix_append current crlf
    rw [List.nil_append, splitInclusiveFrom, if_neg noFeed, splitInclusiveFrom, if_pos ends, List.append_nil,
      List.append_assoc]
    rfl
  | cons char later ih =>
    have noEnd : ¬crlf.isSuffixOf (current ++ [char]) = true := by
      rw [List.isSuffixOf_iff_suffix]
      intro isSuffix
      refine unbroken (isSuffix.isInfix.trans ?_)
      exact List.IsPrefix.isInfix ⟨later, by simp⟩
    have behind : ¬crlf <:+: current ++ [char] ++ later := by
      rwa [List.append_assoc, List.singleton_append]
    rw [List.cons_append, splitInclusiveFrom, if_neg noEnd, ih behind]
    simp

/-- Lines are split at their endings, which they keep. -/
theorem splitInclusive_crlfLines {lines : List Text} (areLines : ∀ line ∈ lines, IsCrlfLine line) :
    splitInclusive crlf (crlfLines lines) = lines.map fun line => line ++ crlf := by
  induction lines with
  | nil => rfl
  | cons line rest ih =>
    obtain ⟨first, others⟩ := List.forall_mem_cons.mp areLines
    have split : crlfLines (line :: rest) = line ++ '\r' :: '\n' :: crlfLines rest := by simp
    rw [split, splitInclusive, splitInclusiveFrom_line (by rw [List.nil_append]; exact first.2), ih others, List.map_cons,
      List.nil_append]

/-! ## The end of a block -/

/-- A line does not begin with a CRLF, nor does it with its ending behind it. -/
theorem IsCrlfLine.not_crlf_prefix {line : Text} (isLine : IsCrlfLine line) (rest : Text) :
    ¬crlf <+: line ++ '\r' :: rest := by
  obtain ⟨notEmpty, unbroken⟩ := isLine
  intro begins
  match line with
  | [] => exact notEmpty rfl
  | [char] => simp [crlf] at begins
  | char :: next :: later =>
    refine unbroken ?_
    obtain ⟨isReturn, begins⟩ := List.cons_prefix_cons.mp begins
    obtain ⟨isFeed, -⟩ := List.cons_prefix_cons.mp begins
    rw [← isReturn, ← isFeed]
    exact List.IsPrefix.isInfix ⟨later, rfl⟩

theorem before?_cons {pattern rest : Text} {char : Char} (noMatch : ¬pattern <+: char :: rest) :
    before? pattern (char :: rest) = (before? pattern rest).map (char :: ·) := by
  rw [before?, if_neg (mt List.isPrefixOf_iff_prefix.mp noMatch)]

/-- An empty line does not begin within a line. -/
theorem before?_crlfLine {line : Text} (unbroken : ¬crlf <:+: line) (rest : Text) :
    before? (crlf ++ crlf) (line ++ '\r' :: rest) = (before? (crlf ++ crlf) ('\r' :: rest)).map (line ++ ·) := by
  induction line with
  | nil => simp
  | cons char later ih =>
    have noMatch : ¬crlf ++ crlf <+: char :: (later ++ '\r' :: rest) := by
      intro begins
      exact IsCrlfLine.not_crlf_prefix ⟨List.cons_ne_nil char later, unbroken⟩ rest
        ((List.prefix_append crlf crlf).trans begins)
    have behind : ¬crlf <:+: later := fun broken => unbroken (broken.trans (List.suffix_cons char later).isInfix)
    have split : char :: later ++ '\r' :: rest = char :: (later ++ '\r' :: rest) := rfl
    rw [split, before?_cons noMatch, ih behind, Option.map_map]
    rfl

/-- An ending that a line follows is not the empty line. -/
theorem before?_crlf_line {line : Text} (isLine : IsCrlfLine line) (rest : Text) :
    before? (crlf ++ crlf) (crlf ++ (line ++ '\r' :: rest)) =
      (before? (crlf ++ crlf) (line ++ '\r' :: rest)).map (crlf ++ ·) := by
  have noMatch : ¬crlf ++ crlf <+: '\r' :: '\n' :: (line ++ '\r' :: rest) := by
    intro begins
    exact isLine.not_crlf_prefix rest (List.cons_prefix_cons.mp (List.cons_prefix_cons.mp begins).2).2
  have noFeed : ¬crlf ++ crlf <+: '\n' :: (line ++ '\r' :: rest) := by
    intro begins
    exact absurd (List.cons_prefix_cons.mp begins).1 (by decide)
  have split : crlf ++ (line ++ '\r' :: rest) = '\r' :: '\n' :: (line ++ '\r' :: rest) := rfl
  rw [split, before?_cons noMatch, before?_cons noFeed, Option.map_map]
  rfl

/-- A block of lines ends at its empty line, whatever the body. -/
theorem before?_crlfLines {lines : List Text} (notEmpty : lines ≠ [])
    (areLines : ∀ line ∈ lines, IsCrlfLine line) (body : Text) :
    (before? (crlf ++ crlf) (crlfLines lines ++ crlf ++ body)).map (· ++ crlf) = some (crlfLines lines) := by
  induction lines with
  | nil => exact absurd rfl notEmpty
  | cons line rest ih =>
    obtain ⟨first, others⟩ := List.forall_mem_cons.mp areLines
    have split : crlfLines (line :: rest) ++ crlf ++ body =
        line ++ '\r' :: ('\n' :: (crlfLines rest ++ crlf ++ body)) := by simp
    rw [split, before?_crlfLine first.2]
    cases rest with
    | nil =>
      have found : before? (crlf ++ crlf) ('\r' :: '\n' :: (crlfLines [] ++ crlf ++ body)) = some [] :=
        before?_match (crlf.tail ++ crlf) '\r'
      rw [found]
      simp [crlfLines]
    | cons next later =>
      have behind := ih (List.cons_ne_nil next later) others
      have splitNext : crlfLines (next :: later) ++ crlf ++ body =
          next ++ '\r' :: ('\n' :: (crlfLines later ++ crlf ++ body)) := by simp
      have isNext := before?_crlf_line (others next List.mem_cons_self)
        ('\n' :: (crlfLines later ++ crlf ++ body))
      rw [← splitNext] at isNext
      obtain ⟨found, isFound, isBlock⟩ := Option.map_eq_some_iff.mp behind
      rw [isFound] at isNext
      have same : '\r' :: '\n' :: (crlfLines (next :: later) ++ crlf ++ body) =
          crlf ++ (crlfLines (next :: later) ++ crlf ++ body) := rfl
      rw [same, isNext, crlfLines_cons, ← isBlock]
      simp

end TutaBridge.Std.Text
