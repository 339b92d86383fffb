import Mathlib.Data.List.Infix
import TutaBridge.Std.Text

/-!
# Patterns in a text

`str::contains` and `str::replace`. Where some characters of a text stand as entities, a
marker and a name, replacing the entity of one character leaves a text with one entity
fewer.
-/

namespace TutaBridge.Std.Text

/-! ## Occurrences -/

/-- `str::contains`. -/
def contains (text pattern : Text) : Bool := text.tails.any fun tail => pattern.isPrefixOf tail

theorem contains_iff {text pattern : Text} : contains text pattern = true ↔ pattern <:+: text := by
  rw [contains, List.any_eq_true, List.infix_iff_prefix_suffix]
  simp only [List.mem_tails, List.isPrefixOf_iff_prefix, and_comm]

/-- A pattern without the separator lies on one side of it. -/
theorem infix_append_cons_iff {separator : Char} {pattern before after : Text} (absent : separator ∉ pattern) :
    pattern <:+: before ++ separator :: after ↔ pattern <:+: before ∨ pattern <:+: after := by
  constructor
  · rintro ⟨start, stop, same⟩
    rcases List.append_eq_append_iff.mp same with ⟨rest, isBefore, -⟩ | ⟨rest, isHead, isTail⟩
    · exact .inl ⟨start, rest, isBefore.symm⟩
    · cases rest with
      | nil =>
        rw [List.append_nil] at isHead
        exact .inl ⟨start, [], by rw [List.append_nil, isHead]⟩
      | cons char rest =>
        obtain ⟨rfl, rfl⟩ := List.cons.inj isTail
        rcases List.append_eq_append_iff.mp isHead with ⟨gap, -, isPattern⟩ | ⟨gap, -, isRest⟩
        · exact absurd (isPattern ▸ List.mem_append_right gap List.mem_cons_self) absent
        · cases gap with
          | nil =>
            rw [List.nil_append] at isRest
            exact absurd (isRest ▸ List.mem_cons_self) absent
          | cons char gap =>
            obtain ⟨-, rfl⟩ := List.cons.inj isRest
            exact .inr ⟨gap, stop, rfl⟩
  · rintro (inBefore | inAfter)
    · exact inBefore.trans (List.infix_append' [] before (separator :: after))
    · exact inAfter.trans ⟨before ++ [separator], [], by simp⟩

/-- A pattern without the separator lies in one of the parts that are joined. -/
theorem infix_intercalate_iff {separator : Char} {pattern : Text} (absent : separator ∉ pattern)
    (notEmpty : pattern ≠ []) (parts : List Text) :
    pattern <:+: [separator].intercalate parts ↔ ∃ part ∈ parts, pattern <:+: part := by
  induction parts with
  | nil => simpa using notEmpty
  | cons part rest ih =>
    cases rest with
    | nil => simp
    | cons next rest =>
      rw [List.intercalate_cons_cons, List.append_assoc, List.singleton_append,
        infix_append_cons_iff absent, ih]
      simp

/-! ## Replacing -/

/-- `replace`, with how much is left to skip of a match. -/
def replaceFrom (pattern replacement : Text) : (skip : Nat) → Text → Text
  | _, [] => []
  | skip + 1, _ :: rest => replaceFrom pattern replacement skip rest
  | 0, char :: rest =>
    if pattern.isPrefixOf (char :: rest) then
      replacement ++ replaceFrom pattern replacement (pattern.length - 1) rest
    else char :: replaceFrom pattern replacement 0 rest

/-- `str::replace`, for a pattern that is not empty. -/
def replace (pattern replacement text : Text) : Text := replaceFrom pattern replacement 0 text

section Replace

variable {first : Char} {later replacement : Text}

theorem replaceFrom_skip (pattern replacement skipped rest : Text) :
    replaceFrom pattern replacement skipped.length (skipped ++ rest) = replace pattern replacement rest := by
  induction skipped with
  | nil => rfl
  | cons char skipped ih => exact ih

theorem replace_match (first : Char) (later replacement rest : Text) :
    replace (first :: later) replacement (first :: (later ++ rest)) =
      replacement ++ replace (first :: later) replacement rest := by
  have isMatch : (first :: later).isPrefixOf (first :: (later ++ rest)) = true :=
    List.isPrefixOf_iff_prefix.mpr (List.prefix_append (first :: later) rest)
  rw [replace, replaceFrom, if_pos isMatch, List.length_cons, Nat.add_sub_cancel, replaceFrom_skip]

theorem replace_cons_of_not_prefix {char : Char} {rest : Text} (different : ¬ first :: later <+: char :: rest) :
    replace (first :: later) replacement (char :: rest) = char :: replace (first :: later) replacement rest := by
  rw [replace, replaceFrom, if_neg (mt List.isPrefixOf_iff_prefix.mp different), replace]

theorem replace_cons_of_ne {char : Char} (different : char ≠ first) (rest : Text) :
    replace (first :: later) replacement (char :: rest) = char :: replace (first :: later) replacement rest := by
  refine replace_cons_of_not_prefix fun isPrefix => ?_
  exact different (List.cons_prefix_cons.mp isPrefix).1.symm

/-- No match begins in a text without the first character of the pattern. -/
theorem replace_append_of_not_mem {text : Text} (absent : first ∉ text) (rest : Text) :
    replace (first :: later) replacement (text ++ rest) = text ++ replace (first :: later) replacement rest := by
  induction text with
  | nil => rfl
  | cons char text ih =>
    obtain ⟨different, absent⟩ := not_or.mp (mt List.mem_cons.mpr absent)
    rw [List.cons_append, replace_cons_of_ne (Ne.symm different), ih absent, List.cons_append]

/-- Replacing one character. -/
theorem replace_singleton (char : Char) (replacement text : Text) : replace [char] replacement text =
      text.flatMap fun other => if other = char then replacement else [other] := by
  induction text with
  | nil => rfl
  | cons other rest ih =>
    rw [List.flatMap_cons, ← ih]
    by_cases same : other = char
    · subst same
      rw [if_pos rfl]
      exact replace_match other [] replacement rest
    · rw [if_neg same, replace_cons_of_ne same]
      rfl

end Replace

/-! ## Entities -/

section Entities

/-- The character as its entity, when it has one. -/
def entity (marker : Char) (names : List (Char × Text)) (char : Char) : Text :=
  match names.lookup char with
  | some name => marker :: name
  | none => [char]

/-- The text with entities. -/
def encoded (marker : Char) (names : List (Char × Text)) (text : Text) : Text :=
  text.flatMap (entity marker names)

theorem encoded_nil (marker : Char) (text : Text) : encoded marker [] text = text := by
  induction text with
  | nil => rfl
  | cons char rest ih =>
    rw [encoded, List.flatMap_cons]
    exact congrArg (char :: ·) ih

/-- What a decoder that reads one entity name needs to know of all names: the marker has an
entity itself and occurs in no name, no character has two names, and neither the name nor
another is the beginning of the other. -/
structure Decodes (marker : Char) (names : List (Char × Text)) (name replacement : Text) : Prop where
  marked : (names.lookup marker).isSome
  unmarked : ∀ row ∈ names, marker ∉ row.2
  distinct : (names.map Prod.fst).Nodup
  apart : ∀ row ∈ names, row.2 = name ∨ ¬ name <+: row.2 ∧ ¬ row.2 <+: name
  meant : ∀ row ∈ names, row.2 = name → replacement = [row.1]

/-- The names without one of them. -/
def without (name : Text) (names : List (Char × Text)) : List (Char × Text) :=
  names.filter fun row => !decide (row.2 = name)

theorem lookup_without {names : List (Char × Text)} (distinct : (names.map Prod.fst).Nodup)
    (name : Text) (char : Char) :
    (without name names).lookup char = (names.lookup char).filter fun found => !decide (found = name) := by
  induction names with
  | nil => rfl
  | cons row rest ih =>
    obtain ⟨other, found⟩ := row
    rw [List.map_cons, List.nodup_cons] at distinct
    have later := ih distinct.2
    rw [without] at later ⊢
    rw [List.filter_cons, List.lookup_cons]
    by_cases same : char = other
    · subst same
      have absent : rest.lookup char = none := by
        rw [List.lookup_eq_none_iff]
        intro row mem
        have different : char ≠ row.1 := by
          rintro rfl
          exact distinct.1 (List.mem_map.mpr ⟨row, mem, rfl⟩)
        simpa using different
      rw [absent] at later
      by_cases drops : found = name
      · simp [drops, later, Option.filter]
      · simp [drops, Option.filter]
    · have notFirst : (char == other) = false := by simpa using same
      by_cases drops : found = name
      · simp [drops, notFirst, later]
      · simp [List.lookup_cons, drops, notFirst, later]

/-- Reading the entity of one character leaves the other entities as they are. -/
theorem replace_encoded {marker : Char} {names : List (Char × Text)} {name replacement : Text}
    (decodes : Decodes marker names name replacement) (text : Text) :
    replace (marker :: name) replacement (encoded marker names text) = encoded marker (without name names) text := by
  induction text with
  | nil => rfl
  | cons char rest ih =>
    have split : ∀ names, encoded marker names (char :: rest) =
        entity marker names char ++ encoded marker names rest := fun _ => List.flatMap_cons
    rw [split, split, ← ih, entity, entity, lookup_without decodes.distinct]
    cases found : names.lookup char with
    | none =>
      have plain : char ≠ marker := by
        rintro rfl
        have marked := decodes.marked
        rw [found] at marked
        cases marked
      exact replace_cons_of_ne plain _
    | some other =>
      have row : (char, other) ∈ names := by
        obtain ⟨before, after, same, -⟩ := List.lookup_eq_some_iff.mp found
        rw [same]
        exact List.mem_append_right _ List.mem_cons_self
      by_cases same : other = name
      · subst same
        rw [decodes.meant _ row rfl]
        simp only [Option.filter_some, decide_true, Bool.not_true, Bool.false_eq_true, if_false]
        exact replace_match marker other [char] _
      · have apart := (decodes.apart _ row).resolve_left same
        simp only [Option.filter_some, same, decide_false, Bool.not_false, if_true]
        rw [List.cons_append, replace_cons_of_not_prefix, replace_append_of_not_mem
          (decodes.unmarked _ row), List.cons_append]
        intro isPrefix
        rcases List.prefix_or_prefix_of_prefix (List.cons_prefix_cons.mp isPrefix).2
          (List.prefix_append other _) with before | behind
        · exact apart.1 before
        · exact apart.2 behind

end Entities

end TutaBridge.Std.Text
