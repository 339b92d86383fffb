import TutaBridge.Std.Text

/-!
# Blocks of lines

A block of lines joined with CRLF that an empty line ends, as headers are written. Where no
line is empty or broken, the block ends at its first empty line and has the lines it was
joined from.
-/

namespace TutaBridge.Std.Text

/-- A line that no reader takes for two. -/
def Unbroken (line : Text) : Prop := '\r' ∉ line ∧ '\n' ∉ line

/-- Lines with a CRLF between each two. -/
def joinLines (lines : List Text) : Text := ['\r', '\n'].intercalate lines

/-- Lines with an ending behind each are the joined lines and one more ending. -/
theorem flatMap_append_eq_intercalate {lines : List Text} (notEmpty : lines ≠ []) (ending : Text) :
    lines.flatMap (fun line => line ++ ending) = ending.intercalate lines ++ ending := by
  induction lines with
  | nil => exact absurd rfl notEmpty
  | cons line rest ih =>
    cases rest with
    | nil => simp
    | cons next rest =>
      have later := ih (List.cons_ne_nil next rest)
      rw [List.flatMap_cons, later]
      simp only [List.intercalate_cons_cons, List.append_assoc]

namespace Unbroken

variable {first second line : Text}

instance : Decidable (Unbroken line) := inferInstanceAs (Decidable (_ ∧ _))

@[simp] theorem nil : Unbroken [] := ⟨List.not_mem_nil, List.not_mem_nil⟩

@[simp] theorem cons_iff {head : Char} : Unbroken (head :: line) ↔ (head ≠ '\r' ∧ head ≠ '\n') ∧ Unbroken line := by
  rw [Unbroken, List.mem_cons, List.mem_cons, not_or, not_or, ← ne_eq, ← ne_eq, ne_comm, @ne_comm _ '\n']
  exact and_and_and_comm

@[simp] theorem append_iff : Unbroken (first ++ second) ↔ Unbroken first ∧ Unbroken second := by
  simp only [Unbroken, List.mem_append, not_or]
  exact and_and_and_comm

theorem iff_forall : Unbroken line ↔ ∀ char ∈ line, char ≠ '\r' ∧ char ≠ '\n' := by
  refine ⟨fun unbroken char mem => ⟨?_, ?_⟩, fun solid => ⟨?_, ?_⟩⟩
  · exact fun same => unbroken.1 (same ▸ mem)
  · exact fun same => unbroken.2 (same ▸ mem)
  · exact fun mem => (solid '\r' mem).1 rfl
  · exact fun mem => (solid '\n' mem).2 rfl

/-- A text without white space has no line breaks. -/
theorem of_solid (solid : ∀ char ∈ line, isWhitespace char = false) : Unbroken line :=
  ⟨fun mem => absurd (solid '\r' mem) (by decide),
    fun mem => absurd (solid '\n' mem) (by decide)⟩

theorem stripReturn (unbroken : Unbroken line) : stripReturn line = line := by
  rw [Text.stripReturn, if_neg]
  exact fun isLast => unbroken.1 (List.mem_of_getLast? isLast)

end Unbroken

/-! ## The end of a block -/

theorem before?_append {first : Char} {pattern text : Text} (absent : first ∉ text) (rest : Text) :
    before? (first :: pattern) (text ++ rest) = (before? (first :: pattern) rest).map (text ++ ·) := by
  induction text with
  | nil => simp
  | cons head later ih =>
    obtain ⟨different, absent⟩ := not_or.mp (mt List.mem_cons.mpr absent)
    have noMatch : (first :: pattern).isPrefixOf (head :: (later ++ rest)) = false := by
      simp [List.isPrefixOf, different]
    rw [List.cons_append, before?, noMatch, if_neg (by decide), ih absent, Option.map_map]
    rfl

/-- What is found stands behind the text before it. -/
theorem prefix_of_before? {pattern text before : Text} (found : before? pattern text = some before) :
    before ++ pattern <+: text := by
  induction text generalizing before with
  | nil =>
    rw [before?] at found
    split at found
    next isEmpty =>
      cases found
      simp [isEmpty]
    next => cases found
  | cons head later ih =>
    rw [before?] at found
    split at found
    next begins =>
      cases found
      exact List.isPrefixOf_iff_prefix.mp begins
    next =>
      obtain ⟨between, isFound, rfl⟩ := Option.map_eq_some_iff.mp found
      exact List.cons_prefix_cons.mpr ⟨rfl, ih isFound⟩

/-- What is found in a text is found in it with more behind it. -/
theorem before?_append_right {pattern text before : Text} (found : before? pattern text = some before)
    (rest : Text) : before? pattern (text ++ rest) = some before := by
  induction text generalizing before with
  | nil =>
    rw [before?] at found
    split at found
    next isEmpty =>
      cases found
      rw [isEmpty, List.nil_append]
      cases rest <;> simp [before?]
    next => cases found
  | cons head later ih =>
    rw [List.cons_append, before?]
    rw [before?] at found
    split at found
    next begins =>
      have stillBegins : pattern.isPrefixOf (head :: (later ++ rest)) = true := by
        rw [List.isPrefixOf_iff_prefix] at begins ⊢
        exact begins.trans (List.prefix_append (head :: later) rest)
      rw [if_pos stillBegins]
      exact found
    next noMatch =>
      obtain ⟨between, isFound, rfl⟩ := Option.map_eq_some_iff.mp found
      -- the later occurrence leaves room for the pattern, so an earlier one would be in the text
      have room := (prefix_of_before? isFound).length_le
      rw [List.length_append] at room
      rw [List.isPrefixOf_iff_prefix] at noMatch
      have stillNone : ¬ pattern.isPrefixOf (head :: (later ++ rest)) = true := by
        rw [List.isPrefixOf_iff_prefix]
        intro begins
        exact noMatch (List.prefix_of_prefix_length_le begins
          (List.prefix_append (head :: later) rest) (by rw [List.length_cons]; omega))
      rw [if_neg stillNone, ih isFound, Option.map_some]

theorem before?_eq_none_iff {pattern text : Text} : before? pattern text = none ↔ ¬ pattern <:+: text := by
  induction text with
  | nil =>
    rw [before?, List.infix_nil]
    split <;> simp_all
  | cons head later ih =>
    rw [before?, List.infix_cons_iff, ← List.isPrefixOf_iff_prefix]
    split
    next begins => simp [begins]
    next noMatch => rw [Option.map_eq_none_iff, ih, not_or, and_iff_right noMatch]

/-- A pattern that cannot reach over a character is looked for behind it. -/
theorem before?_append_stop {stop : Char} {pattern front : Text} (noStop : stop ∉ pattern)
    (absent : ¬ pattern <:+: front) (rest : Text) :
    before? pattern (front ++ stop :: rest) = (before? pattern rest).map (front ++ stop :: ·) := by
  induction front with
  | nil =>
    have noMatch : ¬ pattern.isPrefixOf (stop :: rest) = true := by
      rw [List.isPrefixOf_iff_prefix, List.prefix_cons_iff]
      rintro (isEmpty | ⟨tail, isPattern, -⟩)
      · exact absent (isEmpty ▸ List.nil_infix)
      · exact noStop (isPattern ▸ List.mem_cons_self)
    rw [List.nil_append, before?, if_neg noMatch]
    rfl
  | cons head later ih =>
    have noMatch : ¬ pattern.isPrefixOf (head :: (later ++ stop :: rest)) = true := by
      rw [List.isPrefixOf_iff_prefix]
      intro begins
      have upToStop : head :: later ++ [stop] <+: head :: (later ++ stop :: rest) := ⟨rest, by simp⟩
      rcases List.prefix_or_prefix_of_prefix begins upToStop with short | long
      · rcases List.prefix_concat_iff.mp short with isPattern | inFront
        · exact noStop (isPattern ▸ List.mem_append_right _ List.mem_cons_self)
        · exact absent inFront.isInfix
      · exact noStop (long.subset (List.mem_append_right _ List.mem_cons_self))
    have stillAbsent : ¬ pattern <:+: later :=
      fun occurs => absent (occurs.trans (List.suffix_cons head later).isInfix)
    rw [List.cons_append, before?, if_neg noMatch, ih stillAbsent, Option.map_map]
    rfl

section Block

variable {rest : Text}

theorem before?_match (pattern : Text) (head : Char) :
    before? (head :: pattern) (head :: (pattern ++ rest)) = some [] := by
  have isMatch : (head :: pattern).isPrefixOf (head :: (pattern ++ rest)) = true := by simp
  rw [before?, isMatch, if_pos rfl]

/-- A pattern is found behind a text when it does not begin in it. -/
theorem before?_append_self {pattern front : Text} (absent : ¬ pattern <:+: front ++ pattern.dropLast) (rest : Text) :
    before? pattern (front ++ pattern ++ rest) = some front := by
  induction front with
  | nil =>
    rw [List.nil_append]
    cases pattern with
    | nil => cases rest <;> simp [before?]
    | cons first later => exact before?_match _ _
  | cons head front ih =>
    have noMatch : ¬ pattern.isPrefixOf (head :: (front ++ pattern ++ rest)) = true := by
      rw [List.isPrefixOf_iff_prefix]
      intro begins
      have room : pattern.length ≤ (head :: front ++ pattern.dropLast).length := by
        simp only [List.length_append, List.length_cons, List.length_dropLast]
        omega
      have isPrefix : head :: front ++ pattern.dropLast <+: head :: (front ++ pattern ++ rest) := by
        rw [List.cons_append, List.append_assoc]
        exact List.cons_prefix_cons.mpr ⟨rfl, (List.prefix_append_right_inj _).mpr
          ((List.dropLast_prefix _).trans (List.prefix_append _ _))⟩
      exact absent (List.prefix_of_prefix_length_le begins isPrefix room).isInfix
    have absentLater : ¬ pattern <:+: front ++ pattern.dropLast := fun inLater =>
      absent (inLater.trans (List.suffix_cons head _).isInfix)
    rw [List.cons_append, List.cons_append, before?, if_neg noMatch, ih absentLater]
    rfl

/-- Where a pattern is found, it does not begin before. -/
theorem not_infix_of_before? {pattern text front : Text} (notEmpty : pattern ≠ [])
    (found : before? pattern text = some front) : ¬ pattern <:+: front ++ pattern.dropLast := by
  intro early
  obtain ⟨other, isOther⟩ : ∃ other, before? pattern (front ++ pattern.dropLast) = some other := by
    rw [← Option.isSome_iff_exists, ← Option.ne_none_iff_isSome]
    exact mt before?_eq_none_iff.mp (not_not.mpr early)
  obtain ⟨last, isLast⟩ : ∃ last, front ++ pattern.dropLast ++ last = text := by
    obtain ⟨rest, split⟩ := prefix_of_before? found
    refine ⟨[pattern.getLast notEmpty] ++ rest, ?_⟩
    rw [← split, ← List.append_assoc, List.append_assoc front, List.dropLast_append_getLast]
  have same := before?_append_right isOther last
  rw [isLast, found] at same
  obtain rfl := Option.some.inj same
  have room := (prefix_of_before? isOther).length_le
  have positive := List.length_pos_of_ne_nil notEmpty
  simp only [List.length_append, List.length_dropLast] at room
  omega

/-- A CRLF that a character follows is not two of them. -/
theorem before?_crlf {char : Char} (notReturn : char ≠ '\r') :
    before? ['\r', '\n', '\r', '\n'] ('\r' :: '\n' :: char :: rest) =
      (before? ['\r', '\n', '\r', '\n'] (char :: rest)).map (['\r', '\n'] ++ ·) := by
  have noReturn : ['\r', '\n', '\r', '\n'].isPrefixOf ('\r' :: '\n' :: char :: rest) = false := by
    simp [List.isPrefixOf, Ne.symm notReturn]
  have noFeed : ['\r', '\n', '\r', '\n'].isPrefixOf ('\n' :: char :: rest) = false := by
    simp [List.isPrefixOf]
  rw [before?, noReturn, if_neg (by decide), before?, noFeed, if_neg (by decide), Option.map_map]
  rfl

/-- A line feed that a character follows is not two of them. -/
theorem before?_feed {char : Char} (notFeed : char ≠ '\n') : before? ['\n', '\n'] ('\n' :: char :: rest) =
      (before? ['\n', '\n'] (char :: rest)).map (['\n'] ++ ·) := by
  have noMatch : ['\n', '\n'].isPrefixOf ('\n' :: char :: rest) = false := by
    simp [List.isPrefixOf, Ne.symm notFeed]
  rw [before?, noMatch, if_neg (by decide)]
  rfl

variable {lines : List Text} {first : Char} {tail : Text}

/-- A block ends at its empty line, with any ending of lines that no line holds and that is not
taken for two. -/
theorem before?_intercalate (breaks : ∀ line : Text, Unbroken line → first ∉ line)
    (skips : ∀ (char : Char) (rest : Text), char ≠ '\r' ∧ char ≠ '\n' →
      before? (first :: (tail ++ first :: tail)) (first :: (tail ++ char :: rest)) =
        (before? (first :: (tail ++ first :: tail)) (char :: rest)).map (first :: tail ++ ·))
    (solid : ∀ line ∈ lines, line ≠ [] ∧ Unbroken line) (body : Text) : before? (first :: (tail ++ first :: tail))
        ((first :: tail).intercalate lines ++ (first :: (tail ++ first :: tail) ++ body)) =
      some ((first :: tail).intercalate lines) := by
  induction lines with
  | nil => exact before?_match (tail ++ first :: tail) first
  | cons line later ih =>
    obtain ⟨⟨-, unbroken⟩, solid⟩ := List.forall_mem_cons.mp solid
    cases later with
    | nil =>
      have found := @before?_match body (tail ++ first :: tail) first
      rw [List.intercalate_singleton, before?_append (breaks line unbroken), List.cons_append, found]
      simp
    | cons next later =>
      obtain ⟨notEmpty, nextUnbroken⟩ := solid next List.mem_cons_self
      obtain ⟨head, behind, rfl⟩ := List.exists_cons_of_ne_nil notEmpty
      have visible := (Unbroken.cons_iff.mp nextUnbroken).1
      obtain ⟨block, isBlock⟩ :
          ∃ block, (first :: tail).intercalate ((head :: behind) :: later) = head :: block := by
        cases later <;> simp [List.intercalate_cons_cons]
      have found := ih solid
      rw [isBlock, List.cons_append] at found
      rw [List.intercalate_cons_cons, isBlock, List.append_assoc, List.append_assoc,
        before?_append (breaks line unbroken)]
      simp only [List.cons_append] at found ⊢
      rw [skips head _ visible, found]
      simp

/-- A block ends where it was ended. -/
theorem before?_joinLines (solid : ∀ line ∈ lines, line ≠ [] ∧ Unbroken line) (body : Text) :
    before? ['\r', '\n', '\r', '\n'] (joinLines lines ++ ['\r', '\n', '\r', '\n'] ++ body) =
      some (joinLines lines) := by
  rw [List.append_assoc]
  exact @before?_intercalate lines '\r' ['\n'] (fun _ unbroken => unbroken.1)
    (fun _ _ visible => before?_crlf visible.1) solid body

end Block

/-! ## The lines of a block -/

/-- What has no line feed is read into the current line. -/
theorem linesFrom_append {text : Text} (current : Text) (absent : '\n' ∉ text) (rest : Text) :
    linesFrom current (text ++ rest) = linesFrom (current ++ text) rest := by
  induction text generalizing current with
  | nil => simp
  | cons head later ih =>
    obtain ⟨different, absent⟩ := not_or.mp (mt List.mem_cons.mpr absent)
    rw [List.cons_append, linesFrom, if_neg (Ne.symm different), ih _ absent]
    simp

/-- A line that a CRLF ends is read whole. -/
theorem lines_line_crlf {line : Text} (unbroken : Unbroken line) (rest : Text) :
    lines (line ++ '\r' :: '\n' :: rest) = line :: lines rest := by
  have absent : '\n' ∉ line ++ ['\r'] := by
    simpa using unbroken.2
  have split : line ++ '\r' :: '\n' :: rest = (line ++ ['\r']) ++ '\n' :: rest := by simp
  rw [lines, split, linesFrom_append [] absent, linesFrom, if_pos rfl, List.nil_append, stripReturn,
    if_pos (by simp), List.dropLast_concat]
  rfl

section Endings

variable {lines : List Text} {ending : Text}

section

variable
    (reads : ∀ line rest : Text, Unbroken line → Text.lines (line ++ (ending ++ rest)) = line :: Text.lines rest)

include reads

/-- Lines are read back from between their endings. -/
theorem lines_intercalate
    (solid : ∀ line ∈ lines, line ≠ [] ∧ Unbroken line) : Text.lines (ending.intercalate lines) = lines := by
  induction lines with
  | nil => rfl
  | cons line later ih =>
    obtain ⟨⟨notEmpty, unbroken⟩, solid⟩ := List.forall_mem_cons.mp solid
    cases later with
    | nil =>
      have read := linesFrom_append [] unbroken.2 []
      rw [List.append_nil, List.nil_append, linesFrom, if_neg notEmpty] at read
      rw [List.intercalate_singleton]
      exact read
    | cons next later =>
      rw [List.intercalate_cons_cons, List.append_assoc, reads line _ unbroken, ih solid]

/-- Lines are read back from before their endings. -/
theorem lines_flatMap
    (unbroken : ∀ line ∈ lines, Unbroken line) : Text.lines (lines.flatMap fun line => line ++ ending) = lines := by
  induction lines with
  | nil => rfl
  | cons line rest ih =>
    obtain ⟨first, later⟩ := List.forall_mem_cons.mp unbroken
    rw [List.flatMap_cons, List.append_assoc, reads line _ first, ih later]

end

theorem lines_joinLines (solid : ∀ line ∈ lines, line ≠ [] ∧ Unbroken line) : Text.lines (joinLines lines) = lines :=
  lines_intercalate (fun _ rest unbroken => lines_line_crlf unbroken rest) solid

theorem lines_flatMap_crlf (unbroken : ∀ line ∈ lines, Unbroken line) :
    Text.lines (lines.flatMap fun line => line ++ ['\r', '\n']) = lines :=
  lines_flatMap (fun _ rest unbroken => lines_line_crlf unbroken rest) unbroken

end Endings

/-! ## Lines with a line feed behind each -/

/-- Lines with a line feed behind each. -/
def feedLines (lines : List Text) : Text := lines.flatMap fun line => line ++ ['\n']

/-- Lines with a line feed between each two. -/
def joinFeeds (lines : List Text) : Text := ['\n'].intercalate lines

section Feeds

variable {lines : List Text}

theorem feedLines_append (first second : List Text) :
    feedLines (first ++ second) = feedLines first ++ feedLines second :=
  List.flatMap_append

theorem feedLines_cons (line : Text) (lines : List Text) :
    feedLines (line :: lines) = line ++ '\n' :: feedLines lines := by
  simp [feedLines]

theorem feedLines_eq_joinFeeds (notEmpty : lines ≠ []) : feedLines lines = joinFeeds lines ++ ['\n'] :=
  flatMap_append_eq_intercalate notEmpty ['\n']

theorem not_mem_feedLines (unbroken : ∀ line ∈ lines, Unbroken line) : '\r' ∉ feedLines lines := by
  intro mem
  obtain ⟨line, inLines, isPart⟩ := List.mem_flatMap.mp mem
  rcases List.mem_append.mp isPart with inLine | isFeed
  · exact (unbroken line inLines).1 inLine
  · exact absurd (List.mem_singleton.mp isFeed) (by decide)

/-- A line that a line feed ends is read whole. -/
theorem lines_line_feed {line : Text} (unbroken : Unbroken line) (rest : Text) :
    Text.lines (line ++ '\n' :: rest) = line :: Text.lines rest := by
  rw [Text.lines, linesFrom_append [] unbroken.2, linesFrom, if_pos rfl, List.nil_append,
    unbroken.stripReturn]
  rfl

theorem lines_feedLines (unbroken : ∀ line ∈ lines, Unbroken line) : Text.lines (feedLines lines) = lines :=
  lines_flatMap (fun _ rest unbroken => lines_line_feed unbroken rest) unbroken

theorem lines_joinFeeds (solid : ∀ line ∈ lines, line ≠ [] ∧ Unbroken line) : Text.lines (joinFeeds lines) = lines :=
  lines_intercalate (fun _ rest unbroken => lines_line_feed unbroken rest) solid

theorem before?_eq_none {first : Char} {pattern text : Text} (absent : first ∉ text) :
    before? (first :: pattern) text = none := by
  have nothing := @before?_append first pattern text absent []
  rw [List.append_nil, before?, if_neg (List.cons_ne_nil first pattern), Option.map_none] at nothing
  exact nothing

/-- A block ends at its empty line. -/
theorem before?_feedLines (notEmpty : lines ≠ []) (solid : ∀ line ∈ lines, line ≠ [] ∧ Unbroken line) (body : Text) :
    before? ['\n', '\n'] (feedLines lines ++ '\n' :: body) = some (joinFeeds lines) := by
  rw [feedLines_eq_joinFeeds notEmpty, List.append_assoc]
  exact @before?_intercalate lines '\n' [] (fun _ unbroken => unbroken.2)
    (fun _ _ visible => before?_feed visible.2) solid body

end Feeds

end TutaBridge.Std.Text
