import TutaBridge.Imap.SearchPrint

/-!
# Criteria that SEARCH does not know

A criterion the parser does not know is meant to hide no message. It is read as `ALL`, and
what follows it as keys of its own. So it keeps its promise as a conjunct. Under a `NOT` it
hides every message, and with arguments in the first branch of an `OR` it moves the second
branch out of the `OR`.
-/

namespace TutaBridge.Imap

open TutaBridge.Std

/-! ## Queries -/

/-- A token that `next_arg` takes. -/
def Token.IsArgument : Token → Prop
  | .lparen | .rparen => False
  | .atom _ | .quoted _ => True

/-- Tokens that are read as a key whatever follows them. -/
structure KeyPhrase (casing : Casing) where
  tokens : List Token
  key : SearchKey
  opens : ∃ first later, tokens = first :: later ∧ first ≠ .rparen
  reads : ∀ fuel rest, tokens.length ≤ fuel → parseKey casing fuel (tokens ++ rest) = (some key, rest)

namespace KeyPhrase

variable {casing : Casing}

def tokensOf (phrases : List (KeyPhrase casing)) : List Token := phrases.flatMap tokens

def keysOf (phrases : List (KeyPhrase casing)) : List SearchKey := phrases.map key

@[simp] theorem tokensOf_nil : tokensOf ([] : List (KeyPhrase casing)) = [] := rfl

@[simp] theorem keysOf_nil : keysOf ([] : List (KeyPhrase casing)) = [] := rfl

@[simp] theorem keysOf_cons (phrase : KeyPhrase casing) (rest : List (KeyPhrase casing)) :
    keysOf (phrase :: rest) = phrase.key :: keysOf rest := rfl

@[simp] theorem tokensOf_cons (phrase : KeyPhrase casing) (rest : List (KeyPhrase casing)) :
    tokensOf (phrase :: rest) = phrase.tokens ++ tokensOf rest := rfl

@[simp] theorem tokensOf_append (first second : List (KeyPhrase casing)) :
    tokensOf (first ++ second) = tokensOf first ++ tokensOf second :=
  List.flatMap_append

@[simp] theorem keysOf_append (first second : List (KeyPhrase casing)) :
    keysOf (first ++ second) = keysOf first ++ keysOf second :=
  List.map_append

/-- A list of keys goes on behind a phrase with one key more. -/
theorem parseKeyList_cons (phrase : KeyPhrase casing) {fuel : Nat}
    (enough : phrase.tokens.length ≤ fuel) (rest : List Token) (inGroup : Bool) :
    parseKeyList casing (fuel + 1) (phrase.tokens ++ rest) inGroup =
      (phrase.key :: (parseKeyList casing fuel rest inGroup).1, (parseKeyList casing fuel rest inGroup).2) := by
  obtain ⟨first, later, split, opens⟩ := phrase.opens
  have read := phrase.reads fuel rest enough
  rw [split, List.cons_append] at read
  rw [split, List.cons_append, parseKeyList_open casing opens, read]

/-- Phrases are read one after the other, and then what stands behind them. -/
theorem parseKeyList_tokensOf (phrases : List (KeyPhrase casing)) {rest : List Token}
    {inGroup : Bool} {bound : Nat} (positive : 1 ≤ bound) {answer : List SearchKey × List Token}
    (behind : ∀ fuel, bound ≤ fuel → parseKeyList casing fuel rest inGroup = answer) :
    ∀ fuel, (tokensOf phrases).length + bound ≤ fuel → parseKeyList casing fuel (tokensOf phrases ++ rest) inGroup =
        (keysOf phrases ++ answer.1, answer.2) := by
  induction phrases with
  | nil => exact fun fuel enough => behind fuel (by simpa using enough)
  | cons phrase later ih =>
    intro fuel enough
    obtain ⟨first, tail, split, -⟩ := phrase.opens
    have notEmpty : 1 ≤ phrase.tokens.length := by simp [split]
    rw [tokensOf_cons, List.length_append] at enough
    obtain ⟨fuel, rfl⟩ : ∃ smaller, fuel = smaller + 1 := ⟨fuel - 1, by omega⟩
    rw [tokensOf_cons, List.append_assoc, parseKeyList_cons phrase (by omega), ih fuel (by omega)]
    rfl

end KeyPhrase

theorem parseKeyList_rparen (casing : Casing) {fuel : Nat} (positive : 1 ≤ fuel) (rest : List Token) :
    parseKeyList casing fuel (.rparen :: rest) true = ([], rest) := by
  obtain ⟨fuel, rfl⟩ : ∃ smaller, fuel = smaller + 1 := ⟨fuel - 1, by omega⟩
  rw [parseKeyList, if_pos rfl]

section Phrases

variable {casing : Casing}

theorem nextArg_of_isArgument {argument : Token} (isArgument : argument.IsArgument) :
    ∃ value, ∀ rest, nextArg (argument :: rest) = (some value, rest) := by
  cases argument with
  | lparen => exact isArgument.elim
  | rparen => exact isArgument.elim
  | atom value => exact ⟨value, fun rest => rfl⟩
  | quoted value => exact ⟨value, fun rest => rfl⟩

/-- What is read as a key of one atom and what stands behind it. -/
theorem parseKey_atom {text : Text} {arguments : List Token} {key : SearchKey}
    (reads : ∀ parser rest, parseAtomKey casing parser text (arguments ++ rest) = (key, rest)) :
    ∀ fuel rest, (Token.atom text :: arguments).length ≤ fuel →
      parseKey casing fuel (.atom text :: arguments ++ rest) = (some key, rest) := by
  intro fuel rest enough
  rw [List.length_cons] at enough
  obtain ⟨fuel, rfl⟩ : ∃ smaller, fuel = smaller + 1 := ⟨fuel - 1, by omega⟩
  rw [List.cons_append, parseKey, reads]

end Phrases

/-! ## The criterion and its place -/

/-- A criterion the parser does not know: an atom that is no word and no sequence set, and
its arguments. -/
structure Criterion (casing : Casing) where
  name : Text
  arguments : List Token
  solid : Solid name
  unnamed : Keyword.ofName (casing.toUppercase name) = none
  noSet : isSeqset name = false
  given : ∀ argument ∈ arguments, argument.IsArgument ∧ argument.IsWord

/-- An argument that is not read as a criterion of its own. -/
def Token.IsInert (casing : Casing) : Token → Prop
  | .lparen | .rparen => False
  | .atom text => Keyword.ofName (casing.toUppercase text) = none ∧ isSeqset text = false
  | .quoted _ => True

/-- A way to write a word. -/
def Spelling (casing : Casing) (word : Keyword) : Type :=
  { text : Text // Solid text ∧ Keyword.ofName (casing.toUppercase text) = some word }

/-- A place for a key in a query, from the key outwards. A group has other keys than the
one that is added to it. -/
inductive Place (casing : Casing) where
  | here
  | group (before : List (KeyPhrase casing)) (inner : Place casing) (after : List (KeyPhrase casing))
      (others : before ++ after ≠ [])
  | orLeft (word : Spelling casing .or) (inner : Place casing) (right : KeyPhrase casing)
  | orRight (word : Spelling casing .or) (left : KeyPhrase casing) (inner : Place casing)
  | not (word : Spelling casing .not) (inner : Place casing)

namespace Place

variable {casing : Casing}

/-- The tokens of a place with the criterion in it. -/
def tokens (criterion : Criterion casing) : Place casing → List Token
  | .here => .atom criterion.name :: criterion.arguments
  | .group before inner after _ =>
    .lparen :: (KeyPhrase.tokensOf before ++ inner.tokens criterion ++ KeyPhrase.tokensOf after ++ [.rparen])
  | .orLeft word inner right => .atom word.1 :: (inner.tokens criterion ++ right.tokens)
  | .orRight word left inner => .atom word.1 :: (left.tokens ++ inner.tokens criterion)
  | .not word inner => .atom word.1 :: inner.tokens criterion

/-- The key of a place without the criterion, where an `OR` or `NOT` that lacks an operand
is left out with it. -/
def leftOut : Place casing → Option SearchKey
  | .here => none
  | .group before inner after _ =>
    some (.and (KeyPhrase.keysOf before ++ inner.leftOut.toList ++ KeyPhrase.keysOf after))
  | .orLeft _ inner right => inner.leftOut.map fun key => .or key right.key
  | .orRight _ left inner => inner.leftOut.map fun key => .or left.key key
  | .not _ inner => inner.leftOut.map SearchKey.not

/-- What the parser reads a place as, and what it leaves behind of the arguments and the keys
they moved. -/
def read (arguments : List (KeyPhrase casing)) : Place casing → SearchKey × List (KeyPhrase casing)
  | .here => (.all, arguments)
  | .group before inner after _ =>
    let key := inner.read arguments
    (foldAnd (KeyPhrase.keysOf before ++ key.1 :: KeyPhrase.keysOf (key.2 ++ after)), [])
  | .orLeft _ inner right =>
    let key := inner.read arguments
    match key.2 with
    | [] => (.or key.1 right.key, [])
    | next :: later => (.or key.1 next.key, later ++ [right])
  | .orRight _ left inner =>
    let key := inner.read arguments
    (.or left.key key.1, key.2)
  | .not _ inner =>
    let key := inner.read arguments
    (.not key.1, key.2)

end Place

section Reading

variable {casing : Casing} {criterion : Criterion casing}

/-- An argument that is not read as a criterion is read as `ALL`. -/
theorem parseKey_inert {argument : Token} (inert : argument.IsInert casing) : ∀ fuel rest, [argument].length ≤ fuel →
      parseKey casing fuel ([argument] ++ rest) = (some .all, rest) := by
  intro fuel rest enough
  rw [List.length_singleton] at enough
  obtain ⟨fuel, rfl⟩ : ∃ smaller, fuel = smaller + 1 := ⟨fuel - 1, by omega⟩
  cases argument with
  | lparen => exact inert.elim
  | rparen => exact inert.elim
  | quoted text => rfl
  | atom text =>
    rw [List.singleton_append, parseKey, parseAtomKey, inert.1]
    simp [inert.2]

def Token.inertPhrase (argument : Token) (inert : argument.IsInert casing) : KeyPhrase casing where
  tokens := [argument]
  key := .all
  opens := ⟨argument, [], rfl, by rintro rfl; exact inert.elim⟩
  reads := parseKey_inert inert

/-- The arguments of a criterion, as the parser reads them. -/
theorem exists_phrases {arguments : List Token} (inert : ∀ argument ∈ arguments, argument.IsInert casing) :
    ∃ phrases : List (KeyPhrase casing), KeyPhrase.tokensOf phrases = arguments ∧
      (∀ phrase ∈ phrases, phrase.key = .all) ∧ phrases.length = arguments.length := by
  induction arguments with
  | nil => exact ⟨[], rfl, by simp, rfl⟩
  | cons argument rest ih =>
    obtain ⟨isInert, inert⟩ := List.forall_mem_cons.mp inert
    obtain ⟨phrases, areRest, allKeys, count⟩ := ih inert
    refine ⟨argument.inertPhrase isInert :: phrases, ?_, ?_, by simp [count]⟩
    · rw [KeyPhrase.tokensOf_cons, areRest]
      rfl
    · exact List.forall_mem_cons.mpr ⟨rfl, allKeys⟩

theorem Place.opens (place : Place casing) :
    ∃ first later, place.tokens criterion = first :: later ∧ first ≠ .rparen := by
  cases place <;> exact ⟨_, _, rfl, by simp⟩

/-- A list of keys with a place in it is read, given how the place is. -/
theorem Place.parseKeyList_tokens {place : Place casing} {read : SearchKey × List (KeyPhrase casing)}
    (reads : ∀ fuel rest, (place.tokens criterion).length ≤ fuel →
      parseKey casing fuel (place.tokens criterion ++ rest) = (some read.1, KeyPhrase.tokensOf read.2 ++ rest))
    (before after : List (KeyPhrase casing)) {rest : List Token} {inGroup : Bool} {bound : Nat}
    (positive : 1 ≤ bound) {ending : List Token}
    (behind : ∀ fuel, bound ≤ fuel → parseKeyList casing fuel rest inGroup = ([], ending))
    {fuel : Nat} (enough : (KeyPhrase.tokensOf before).length + ((place.tokens criterion).length +
      ((KeyPhrase.tokensOf after).length + bound)) ≤ fuel) :
    parseKeyList casing fuel (KeyPhrase.tokensOf before ++ (place.tokens criterion ++
        (KeyPhrase.tokensOf after ++ rest))) inGroup =
      (KeyPhrase.keysOf before ++ read.1 :: KeyPhrase.keysOf (read.2 ++ after), ending) := by
  obtain ⟨first, later, split, opens⟩ := @Place.opens casing criterion place
  have atPlace : ∀ fuel, (place.tokens criterion).length +
        ((KeyPhrase.tokensOf after).length + bound) ≤ fuel →
      parseKeyList casing fuel (place.tokens criterion ++ (KeyPhrase.tokensOf after ++ rest)) inGroup =
        (read.1 :: KeyPhrase.keysOf (read.2 ++ after), ending) := by
    intro fuel enough
    obtain ⟨fuel, rfl⟩ : ∃ smaller, fuel = smaller + 1 := ⟨fuel - 1, by omega⟩
    have width : (place.tokens criterion).length = later.length + 1 := by rw [split]; rfl
    have here := reads fuel (KeyPhrase.tokensOf after ++ rest) (by omega)
    have shorter := length_parseKey_lt casing fuel first (later ++ (KeyPhrase.tokensOf after ++ rest))
      (by omega)
    rw [split, List.cons_append] at here
    rw [here] at shorter
    simp only [List.length_append] at shorter
    have list := KeyPhrase.parseKeyList_tokensOf (read.2 ++ after) positive behind fuel
      (by rw [KeyPhrase.tokensOf_append, List.length_append]; omega)
    rw [KeyPhrase.tokensOf_append, List.append_assoc] at list
    rw [split, List.cons_append, parseKeyList_open casing opens, here]
    simp only [list, List.append_nil]
  exact KeyPhrase.parseKeyList_tokensOf before (by omega) atPlace fuel enough

/-- The parser reads a place as it stands, and leaves behind what it was said to. -/
theorem Place.parseKey_tokens {arguments : List (KeyPhrase casing)}
    (areArguments : KeyPhrase.tokensOf arguments = criterion.arguments) (place : Place casing) :
    ∀ fuel rest, (place.tokens criterion).length ≤ fuel → parseKey casing fuel (place.tokens criterion ++ rest) =
        (some (place.read arguments).1, KeyPhrase.tokensOf (place.read arguments).2 ++ rest) := by
  induction place with
  | here =>
    intro fuel rest enough
    rw [tokens, List.length_cons] at enough
    obtain ⟨fuel, rfl⟩ : ∃ smaller, fuel = smaller + 1 := ⟨fuel - 1, by omega⟩
    rw [tokens, List.cons_append, parseKey, parseAtomKey, criterion.unnamed, read, areArguments]
    simp [criterion.noSet]
  | group before inner after others ih =>
    intro fuel rest enough
    simp only [tokens, List.length_cons, List.length_append, List.length_nil] at enough
    obtain ⟨fuel, rfl⟩ : ∃ smaller, fuel = smaller + 1 := ⟨fuel - 1, by omega⟩
    have list := Place.parseKeyList_tokens ih before after (Nat.le_refl 1)
      (fun fuel positive => parseKeyList_rparen casing positive rest)
      (show _ ≤ fuel by omega)
    rw [tokens, List.cons_append, parseKey]
    simp only [List.append_assoc, List.singleton_append]
    rw [list]
    rfl
  | orLeft word inner right ih =>
    intro fuel rest enough
    rw [tokens, List.length_cons, List.length_append] at enough
    obtain ⟨fuel, rfl⟩ : ∃ smaller, fuel = smaller + 1 := ⟨fuel - 1, by omega⟩
    have first := ih fuel (right.tokens ++ rest) (by omega)
    rw [tokens, List.cons_append, parseKey, parseAtomKey, word.2.2, List.append_assoc]
    simp only [first, read]
    cases moved : (inner.read arguments).2 with
    | nil =>
      have second := right.reads fuel rest (by omega)
      simp [second]
    | cons next later =>
      have fits := (length_parse_le casing fuel).2 (inner.tokens criterion ++ (right.tokens ++ rest))
      rw [first, moved] at fits
      simp only [KeyPhrase.tokensOf_cons, List.length_append] at fits
      have second := next.reads fuel (KeyPhrase.tokensOf later ++ (right.tokens ++ rest)) (by omega)
      simp [second]
  | orRight word left inner ih =>
    intro fuel rest enough
    rw [tokens, List.length_cons, List.length_append] at enough
    obtain ⟨fuel, rfl⟩ : ∃ smaller, fuel = smaller + 1 := ⟨fuel - 1, by omega⟩
    have first := left.reads fuel (inner.tokens criterion ++ rest) (by omega)
    have second := ih fuel rest (by omega)
    rw [tokens, List.cons_append, parseKey, parseAtomKey, word.2.2, List.append_assoc]
    simp [first, second, read]
  | not word inner ih =>
    intro fuel rest enough
    rw [tokens, List.length_cons] at enough
    obtain ⟨fuel, rfl⟩ : ∃ smaller, fuel = smaller + 1 := ⟨fuel - 1, by omega⟩
    have only := ih fuel rest (by omega)
    rw [tokens, List.cons_append, parseKey, parseAtomKey, word.2.2]
    simp [only, read]

end Reading

/-! ## Where a criterion hides nothing -/

/-- A place without the keys around it. -/
inductive Shape where
  | here
  | group (inner : Shape)
  | orLeft (inner : Shape)
  | orRight (inner : Shape)
  | not (inner : Shape)
deriving DecidableEq, Repr

namespace Shape

/-- No group is around the criterion, so nothing is left of the place without it. -/
def isOpen : Shape → Bool
  | .here => true
  | .group _ => false
  | .orLeft inner | .orRight inner | .not inner => inner.isOpen

/-- An argument takes the place of the second branch of an `OR`, which moves out of it. -/
def leaks (hasArguments : Bool) : Shape → Bool
  | .here | .group _ => false
  | .orLeft inner => inner.leaks hasArguments || (inner.isOpen && hasArguments)
  | .orRight inner | .not inner => inner.leaks hasArguments

/-- Whether the criterion takes no message from what the place matches, or, where `grows` is
not set, adds none. A group is no larger with the criterion in it, an `OR` no smaller with a
branch that stays. -/
def keeps (hasArguments : Bool) : (grows : Bool) → Shape → Bool
  | grows, .here => grows
  | grows, .not inner => inner.keeps hasArguments !grows
  | true, .orLeft inner | true, .orRight inner => inner.keeps hasArguments true
  | false, .orLeft inner | false, .orRight inner => !inner.isOpen && inner.keeps hasArguments false
  | true, .group inner => inner.keeps hasArguments true && !inner.leaks hasArguments
  | false, .group inner => inner.isOpen || inner.keeps hasArguments false

/-- The criterion hides no message that a query with the place in it matches. -/
def harmless (hasArguments : Bool) (shape : Shape) : Bool :=
  shape.keeps hasArguments true && !shape.leaks hasArguments

/-- Only arguments move a key, and nothing moves out of a group. -/
theorem of_leaks {hasArguments : Bool} {shape : Shape} (moves : shape.leaks hasArguments = true) :
    shape.isOpen = true ∧ hasArguments = true := by
  induction shape with
  | here => cases moves
  | group inner _ => cases moves
  | orLeft inner ih =>
    rcases Bool.or_eq_true_iff.mp moves with inside | here
    · exact ih inside
    · exact Bool.and_eq_true_iff.mp here
  | orRight inner ih => exact ih moves
  | not inner ih => exact ih moves

theorem not_leaks_of_closed {hasArguments : Bool} {shape : Shape} (closed : shape.isOpen = false) :
    shape.leaks hasArguments = false := by
  rw [← Bool.not_eq_true]
  intro moves
  rw [(of_leaks moves).1] at closed
  cases closed

end Shape

namespace Place

variable {casing : Casing}

def shape : Place casing → Shape
  | .here => .here
  | .group _ inner _ _ => .group inner.shape
  | .orLeft _ inner _ => .orLeft inner.shape
  | .orRight _ _ inner => .orRight inner.shape
  | .not _ inner => .not inner.shape

theorem leftOut_eq_none_iff (place : Place casing) : place.leftOut = none ↔ place.shape.isOpen = true := by
  induction place with
  | here => simp [leftOut, shape, Shape.isOpen]
  | group before inner after others ih => simp [leftOut, shape, Shape.isOpen]
  | orLeft word inner right ih =>
    simpa [leftOut, shape, Shape.isOpen] using ih
  | orRight word left inner ih =>
    simpa [leftOut, shape, Shape.isOpen] using ih
  | not word inner ih =>
    simpa [leftOut, shape, Shape.isOpen] using ih

variable {arguments : List (KeyPhrase casing)}

/-- What is left behind is as many keys as there are arguments, and nothing behind a group. -/
theorem length_read (place : Place casing) :
    (place.read arguments).2.length = if place.shape.isOpen then arguments.length else 0 := by
  induction place with
  | here => rfl
  | group before inner after others ih => rfl
  | orRight word left inner ih => exact ih
  | not word inner ih => exact ih
  | orLeft word inner right ih =>
    rw [read]
    have sameOpen : (Place.orLeft word inner right).shape.isOpen = inner.shape.isOpen := rfl
    rw [sameOpen, ← ih]
    split
    next nothing => simp [nothing]
    next first later moved => simp [moved]

theorem read_inner {inner : Place casing} (noMove : (inner.shape.isOpen && !arguments.isEmpty) = false)
    (read : (inner.read arguments).2 = if inner.shape.isOpen then arguments else []) :
    (inner.read arguments).2 = [] := by
  rw [read]
  rcases Bool.and_eq_false_iff.mp noMove with closed | noArguments
  · simp [closed]
  · simp [List.isEmpty_iff.mp (by simpa using noArguments)]

/-- Where nothing moves, the arguments are left behind. -/
theorem read_of_not_leaks {place : Place casing} (stays : place.shape.leaks (!arguments.isEmpty) = false) :
    (place.read arguments).2 = if place.shape.isOpen then arguments else [] := by
  induction place with
  | here => rfl
  | group before inner after others ih => rfl
  | orRight word left inner ih => exact ih stays
  | not word inner ih => exact ih stays
  | orLeft word inner right ih =>
    obtain ⟨innerStays, noMove⟩ := Bool.or_eq_false_iff.mp stays
    have nothingMoved := read_inner noMove (ih innerStays)
    rw [read, nothingMoved]
    rcases Bool.and_eq_false_iff.mp noMove with closed | noArguments
    · simp [shape, Shape.isOpen, closed]
    · simp [List.isEmpty_iff.mp (by simpa using noArguments)]

/-- An `OR` keeps its second branch where nothing moves. -/
theorem read_orLeft {word : Spelling casing .or} {inner : Place casing} {right : KeyPhrase casing}
    (stays : (Place.orLeft word inner right).shape.leaks (!arguments.isEmpty) = false) :
    ((Place.orLeft word inner right).read arguments).1 = .or (inner.read arguments).1 right.key := by
  obtain ⟨innerStays, noMove⟩ := Bool.or_eq_false_iff.mp stays
  rw [read, read_inner noMove (read_of_not_leaks innerStays)]

end Place

section Meaning

variable {casing : Casing} {message : MsgView} {context : SearchContext}
  {arguments : List (KeyPhrase casing)}

theorem matchesAll_iff (keys : List SearchKey) : matchesAll casing message context keys = true ↔
      ∀ key ∈ keys, matchesKey casing message context key = true := by
  induction keys with
  | nil => simp [matchesAll]
  | cons key rest ih => simp [matchesAll, ih]

theorem matchesAll_append (first second : List SearchKey) : matchesAll casing message context (first ++ second) =
      (matchesAll casing message context first && matchesAll casing message context second) := by
  induction first with
  | nil => rfl
  | cons key rest ih =>
    rw [List.cons_append, matchesAll, ih, matchesAll, Bool.and_assoc]

/-- Whether the message matches what is left of a place without the criterion. Where nothing is
left, `nothing` says. -/
def matchesLeftOut (casing : Casing) (message : MsgView) (context : SearchContext) (nothing : Bool)
    (place : Place casing) : Bool :=
  (place.leftOut.map (matchesKey casing message context)).getD nothing

section Branches

variable (word : Spelling casing .or) (sibling : KeyPhrase casing) (inner : Place casing)

theorem matchesLeftOut_of_isOpen {inner : Place casing} (isOpen : inner.shape.isOpen = true)
    (nothing : Bool) : matchesLeftOut casing message context nothing inner = nothing := by
  rw [matchesLeftOut, inner.leftOut_eq_none_iff.mpr isOpen]
  rfl

theorem matchesLeftOut_not (word : Spelling casing .not) (inner : Place casing) (nothing : Bool) :
    matchesLeftOut casing message context nothing (.not word inner) =
      !matchesLeftOut casing message context (!nothing) inner := by
  cases left : inner.leftOut <;> simp [matchesLeftOut, Place.leftOut, left, matchesKey]

section Groups

variable (before after : List (KeyPhrase casing)) (others : before ++ after ≠ [])
  (inner : Place casing)

theorem matchesLeftOut_group (nothing : Bool) :
    matchesLeftOut casing message context nothing (.group before inner after others) =
      (matchesAll casing message context (KeyPhrase.keysOf before) &&
        matchesLeftOut casing message context true inner &&
          matchesAll casing message context (KeyPhrase.keysOf after)) := by
  cases left : inner.leftOut <;>
    simp [matchesLeftOut, Place.leftOut, left, matchesKey, matchesAll, matchesAll_append, Bool.and_assoc]

theorem matchesKey_read_group :
    matchesKey casing message context ((Place.group before inner after others).read arguments).1 =
      (matchesAll casing message context (KeyPhrase.keysOf before) &&
        (matchesKey casing message context (inner.read arguments).1 &&
          (matchesAll casing message context (KeyPhrase.keysOf (inner.read arguments).2) &&
            matchesAll casing message context (KeyPhrase.keysOf after)))) := by
  simp [Place.read, matchesKey_foldAnd, matchesAll, matchesAll_append]

end Groups

theorem matchesLeftOut_of_closed {inner : Place casing} (closed : inner.shape.isOpen = false) (nothing : Bool) :
    matchesLeftOut casing message context nothing inner = matchesLeftOut casing message context true inner := by
  have isLeft : inner.leftOut ≠ none := mt inner.leftOut_eq_none_iff.mp (by simp [closed])
  obtain ⟨key, left⟩ := Option.ne_none_iff_exists'.mp isLeft
  simp [matchesLeftOut, left]

/-- The arguments that are left behind, where nothing moves, restrict nothing. -/
theorem matchesAll_left_behind (allKeys : ∀ argument ∈ arguments, argument.key = .all)
    {inner : Place casing} (stays : inner.shape.leaks (!arguments.isEmpty) = false) :
    matchesAll casing message context (KeyPhrase.keysOf (inner.read arguments).2) = true := by
  rw [Place.read_of_not_leaks stays, matchesAll_iff]
  split
  · intro key mem
    obtain ⟨argument, isArgument, rfl⟩ := List.mem_map.mp mem
    rw [allKeys argument isArgument, matchesKey]
  · simp

theorem matchesLeftOut_orLeft (nothing : Bool) :
    matchesLeftOut casing message context nothing (.orLeft word inner sibling) =
      if inner.shape.isOpen then nothing
      else matchesLeftOut casing message context nothing inner ||
        matchesKey casing message context sibling.key := by
  split
  next isOpen =>
    exact @matchesLeftOut_of_isOpen casing message context (.orLeft word inner sibling) isOpen nothing
  next closed =>
    obtain ⟨key, left⟩ := Option.ne_none_iff_exists'.mp (mt inner.leftOut_eq_none_iff.mp closed)
    simp [matchesLeftOut, Place.leftOut, left, matchesKey]

theorem matchesLeftOut_orRight (nothing : Bool) :
    matchesLeftOut casing message context nothing (.orRight word sibling inner) =
      if inner.shape.isOpen then nothing
      else matchesLeftOut casing message context nothing inner ||
        matchesKey casing message context sibling.key := by
  split
  next isOpen =>
    exact @matchesLeftOut_of_isOpen casing message context (.orRight word sibling inner) isOpen nothing
  next closed =>
    obtain ⟨key, left⟩ := Option.ne_none_iff_exists'.mp (mt inner.leftOut_eq_none_iff.mp closed)
    simp [matchesLeftOut, Place.leftOut, left, matchesKey, Bool.or_comm]

/-- A branch that keeps its messages makes an `OR` that keeps them. -/
theorem keeps_branch {inner : Place casing} {key other : Bool} {kept stays : Bool}
    {whole : Bool → Bool}
    (grows : kept = true → matchesLeftOut casing message context true inner = true → key = true)
    (shrinks : stays = true → key = true → matchesLeftOut casing message context false inner = true)
    (leftOut : ∀ nothing, whole nothing = if inner.shape.isOpen then nothing
      else matchesLeftOut casing message context nothing inner || other) :
    (kept = true → whole true = true → (key || other) = true) ∧
      ((!inner.shape.isOpen && stays) = true → (key || other) = true → whole false = true) := by
  rw [leftOut, leftOut]
  constructor
  · intro isKept matched
    split at matched
    next isOpen => rw [grows isKept (matchesLeftOut_of_isOpen isOpen true), Bool.true_or]
    next closed =>
      rcases Bool.or_eq_true_iff.mp matched with inner | sibling
      · rw [grows isKept inner, Bool.true_or]
      · rw [sibling, Bool.or_true]
  · intro isKept matched
    obtain ⟨closed, staysKept⟩ := Bool.and_eq_true_iff.mp isKept
    rw [if_neg (by simpa using closed)]
    rcases Bool.or_eq_true_iff.mp matched with inner | sibling
    · rw [shrinks staysKept inner, Bool.true_or]
    · rw [sibling, Bool.or_true]

end Branches

/-- What is read in place of a criterion keeps the messages of what is left without it. -/
theorem Place.keeps_read (allKeys : ∀ argument ∈ arguments, argument.key = .all)
    {place : Place casing} (stays : place.shape.leaks (!arguments.isEmpty) = false) :
    (place.shape.keeps (!arguments.isEmpty) true = true → matchesLeftOut casing message context true place = true →
      matchesKey casing message context (place.read arguments).1 = true) ∧
    (place.shape.keeps (!arguments.isEmpty) false = true →
      matchesKey casing message context (place.read arguments).1 = true →
      matchesLeftOut casing message context false place = true) := by
  induction place with
  | here => simp [Place.shape, Shape.keeps, Place.read, matchesKey]
  | not word inner ih =>
    obtain ⟨grows, shrinks⟩ := ih stays
    have negated := @matchesLeftOut_not casing message context word inner
    have key : matchesKey casing message context ((Place.not word inner).read arguments).1 =
        !matchesKey casing message context (inner.read arguments).1 := rfl
    constructor
    · intro kept matched
      rw [negated, Bool.not_true] at matched
      rw [key]
      by_contra missed
      simp only [Bool.not_eq_true', Bool.not_eq_false] at missed
      rw [shrinks kept missed] at matched
      cases matched
    · intro kept matched
      rw [key] at matched
      rw [negated, Bool.not_false]
      by_contra missed
      simp only [Bool.not_eq_true', Bool.not_eq_false] at missed
      rw [grows kept missed] at matched
      cases matched
  | orRight word left inner ih =>
    obtain ⟨grows, shrinks⟩ := ih stays
    have key : matchesKey casing message context ((Place.orRight word left inner).read arguments).1 =
        (matchesKey casing message context left.key ||
          matchesKey casing message context (inner.read arguments).1) := by
      simp [Place.read, matchesKey]
    rw [key, Bool.or_comm]
    exact keeps_branch grows shrinks (matchesLeftOut_orRight word left inner)
  | orLeft word inner right ih =>
    obtain ⟨innerStays, -⟩ := Bool.or_eq_false_iff.mp stays
    obtain ⟨grows, shrinks⟩ := ih innerStays
    rw [Place.read_orLeft stays, matchesKey]
    exact keeps_branch grows shrinks (matchesLeftOut_orLeft word right inner)
  | group before inner after others ih =>
    rw [matchesLeftOut_group, matchesLeftOut_group, matchesKey_read_group]
    constructor
    · intro kept matched
      obtain ⟨innerKept, innerStays⟩ := Bool.and_eq_true_iff.mp kept
      rw [Bool.not_eq_true'] at innerStays
      obtain ⟨first, last⟩ := Bool.and_eq_true_iff.mp matched
      obtain ⟨first, middle⟩ := Bool.and_eq_true_iff.mp first
      have spilled : matchesAll casing message context (KeyPhrase.keysOf (inner.read arguments).2) =
          true := matchesAll_left_behind allKeys innerStays
      rw [first, last, spilled, (ih innerStays).1 innerKept middle]
      rfl
    · intro kept matched
      obtain ⟨first, rest⟩ := Bool.and_eq_true_iff.mp matched
      obtain ⟨middle, rest⟩ := Bool.and_eq_true_iff.mp rest
      obtain ⟨-, last⟩ := Bool.and_eq_true_iff.mp rest
      rw [first, last, Bool.true_and, Bool.and_true]
      cases isOpen : inner.shape.isOpen with
      | true => exact matchesLeftOut_of_isOpen isOpen true
      | false =>
        have stillKept : inner.shape.keeps (!arguments.isEmpty) false = true := by
          simpa [Place.shape, Shape.keeps, isOpen] using kept
        have shrinks := (ih (Shape.not_leaks_of_closed isOpen)).2 stillKept middle
        rwa [matchesLeftOut_of_closed isOpen] at shrinks

end Meaning

/-! ## Where a criterion hides messages -/

/-- A token that is written as one. -/
def Token.IsWritten : Token → Prop
  | .lparen | .rparen | .quoted _ => True
  | .atom text => Solid text

/-- Tokens with a space behind each. -/
def printTokens (tokens : List Token) : Text := tokens.flatMap fun token => token.print ++ [' ']

theorem tokenize_printTokens {tokens : List Token} (written : ∀ token ∈ tokens, token.IsWritten) :
    tokenize (printTokens tokens) = tokens := by
  induction tokens with
  | nil => simp [printTokens, tokenize]
  | cons token rest ih =>
    obtain ⟨isWritten, written⟩ := List.forall_mem_cons.mp written
    have later := ih written
    have split : printTokens (token :: rest) = token.print ++ ' ' :: printTokens rest := by
      simp [printTokens]
    rw [split]
    cases token with
    | lparen => rw [Token.print, List.singleton_append, tokenize_lparen, tokenize_blank, later]
    | rparen => rw [Token.print, List.singleton_append, tokenize_rparen, tokenize_blank, later]
    | quoted text => rw [Token.print, tokenize_quoted, tokenize_blank, later]
    | atom text =>
      rw [Token.print, tokenize_atom isWritten (delimited_cons (by decide)), tokenize_blank, later]

section Samples

variable {casing : Casing}

/-- The word in capital letters. -/
def Keyword.spelling (word : Keyword) : Spelling casing word :=
  ⟨word.name, word.solid_name, by rw [word.toUppercase_name, word.ofName_name]⟩

theorem reads_alone (word : Keyword) {key : SearchKey}
    (reads : ∀ parser rest, parseAtomKey casing parser word.name ([] ++ rest) = (key, rest)) :
    ∃ phrase : KeyPhrase casing, phrase.key = key ∧ ∀ token ∈ phrase.tokens, token.IsWritten := by
  refine ⟨⟨[.atom word.name], key, ⟨_, _, rfl, by simp⟩, parseKey_atom reads⟩, rfl, ?_⟩
  simpa [Token.IsWritten] using word.solid_name

/-- A key that every message matches, and one that none does. -/
theorem exists_constant (casing : Casing) (answer : Bool) : ∃ phrase : KeyPhrase casing, (∀ message context,
      matchesKey casing message context phrase.key = answer) ∧ ∀ token ∈ phrase.tokens, token.IsWritten := by
  cases answer with
  | true =>
    obtain ⟨phrase, isKey, written⟩ := @reads_alone casing .all .all fun parser rest => by
      rw [parseAtomKey, Keyword.toUppercase_name, Keyword.ofName_name]
      rfl
    exact ⟨phrase, fun message context => by rw [isKey, matchesKey], written⟩
  | false =>
    obtain ⟨phrase, isKey, written⟩ := @reads_alone casing .answered .answered fun parser rest => by
      rw [parseAtomKey, Keyword.toUppercase_name, Keyword.ofName_name]
      rfl
    exact ⟨phrase, fun message context => by rw [isKey, matchesKey], written⟩

end Samples

section Breaks

variable {casing : Casing} (criterion : Criterion casing) (arguments : List (KeyPhrase casing))

/-- A place of the shape in a query that can be written. -/
structure Sample (shape : Shape) where
  place : Place casing
  isShape : place.shape = shape
  written : ∀ token ∈ place.tokens criterion, token.IsWritten

namespace Sample

variable {criterion} {shape : Shape}

theorem isWritten_word {word : Keyword} {later : List Token} (written : ∀ token ∈ later, token.IsWritten) :
    ∀ token ∈ .atom word.name :: later, token.IsWritten :=
  List.forall_mem_cons.mpr ⟨word.solid_name, written⟩

def here : Sample criterion .here where
  place := .here
  isShape := rfl
  written := by
    refine List.forall_mem_cons.mpr ⟨criterion.solid, fun token mem => ?_⟩
    have isWord := (criterion.given token mem).2
    cases token with
    | lparen => trivial
    | rparen => trivial
    | quoted text => trivial
    | atom text => exact isWord

def not (sample : Sample criterion shape) : Sample criterion (.not shape) where
  place := .not Keyword.not.spelling sample.place
  isShape := congrArg Shape.not sample.isShape
  written := @isWritten_word .not _ sample.written

variable {phrase : KeyPhrase casing}

def orLeft (sample : Sample criterion shape) (written : ∀ token ∈ phrase.tokens, token.IsWritten) :
    Sample criterion (.orLeft shape) where
  place := .orLeft Keyword.or.spelling sample.place phrase
  isShape := congrArg Shape.orLeft sample.isShape
  written := @isWritten_word .or _ (List.forall_mem_append.mpr ⟨sample.written, written⟩)

def orRight (sample : Sample criterion shape) (written : ∀ token ∈ phrase.tokens, token.IsWritten) :
    Sample criterion (.orRight shape) where
  place := .orRight Keyword.or.spelling phrase sample.place
  isShape := congrArg Shape.orRight sample.isShape
  written := @isWritten_word .or _ (List.forall_mem_append.mpr ⟨written, sample.written⟩)

/-- A group of one other key and the place. -/
def group (sample : Sample criterion shape) (written : ∀ token ∈ phrase.tokens, token.IsWritten) :
    Sample criterion (.group shape) where
  place := .group [phrase] sample.place [] (by simp)
  isShape := congrArg Shape.group sample.isShape
  written := by
    intro token mem
    simp only [Place.tokens, KeyPhrase.tokensOf_cons, KeyPhrase.tokensOf_nil, List.append_nil,
      List.mem_cons, List.mem_append, List.not_mem_nil, or_false] at mem
    rcases mem with rfl | (inPhrase | inPlace) | rfl
    · trivial
    · exact written token inPhrase
    · exact sample.written token inPlace
    · trivial

end Sample

/-- A place where the answer without the criterion and the answer with it are the given ones,
whatever the message is. -/
def Answers (shape : Shape) (without within : Bool) : Prop :=
  ∃ sample : Sample criterion shape, ∀ message context,
    matchesLeftOut casing message context without sample.place = without ∧
      matchesKey casing message context (sample.place.read arguments).1 = within

/-- A place where what is left behind matches no message. -/
def Spills (shape : Shape) : Prop :=
  ∃ sample : Sample criterion shape, ∀ message context,
    matchesAll casing message context (KeyPhrase.keysOf (sample.place.read arguments).2) = false

variable {criterion} {arguments} {shape : Shape}

theorem nonempty_sample (shape : Shape) : Nonempty (Sample criterion shape) := by
  obtain ⟨phrase, -, written⟩ := exists_constant casing true
  induction shape with
  | here => exact ⟨.here⟩
  | group inner ih =>
    exact ih.map fun sample => sample.group written
  | orLeft inner ih =>
    exact ih.map fun sample => sample.orLeft written
  | orRight inner ih =>
    exact ih.map fun sample => sample.orRight written
  | not inner ih => exact ih.map Sample.not

theorem spills_of_leaks (leaks : shape.leaks (!arguments.isEmpty) = true) : Spills criterion arguments shape := by
  induction shape with
  | here => cases leaks
  | group inner ih => cases leaks
  | orRight inner ih =>
    obtain ⟨sample, spilled⟩ := ih leaks
    obtain ⟨phrase, -, written⟩ := exists_constant casing true
    exact ⟨sample.orRight written, spilled⟩
  | not inner ih =>
    obtain ⟨sample, spilled⟩ := ih leaks
    exact ⟨sample.not, spilled⟩
  | orLeft inner ih =>
    -- An argument or a moved key is left behind the branch, so the second branch moves.
    obtain ⟨phrase, never, written⟩ := exists_constant casing false
    obtain ⟨sample⟩ := @nonempty_sample casing criterion inner
    obtain ⟨isOpen, hasArguments⟩ := Shape.of_leaks leaks
    have notEmpty : arguments ≠ [] := by simpa using hasArguments
    have moved : (sample.place.read arguments).2 ≠ [] := by
      intro nothing
      have count := @Place.length_read casing arguments sample.place
      rw [sample.isShape, show inner.isOpen = true from isOpen, if_pos rfl, nothing] at count
      exact notEmpty (List.eq_nil_of_length_eq_zero count.symm)
    obtain ⟨next, later, split⟩ := List.exists_cons_of_ne_nil moved
    refine ⟨sample.orLeft written, fun message context => ?_⟩
    have left : ((sample.orLeft written).place.read arguments).2 = later ++ [phrase] := by
      rw [Sample.orLeft, Place.read, split]
    rw [left, KeyPhrase.keysOf_append, matchesAll_append]
    simp [matchesAll, never]

/-- A branch with different answers makes an `OR` with different answers, with a second branch
that never matches, or one that always does where the `OR` is left out with the criterion. -/
theorem answers_branch {inner whole : Shape} (build : Sample criterion inner → ∀ phrase : KeyPhrase casing,
      (∀ token ∈ phrase.tokens, token.IsWritten) → Sample criterion whole)
    (left : ∀ sample phrase written message context nothing,
      matchesLeftOut casing message context nothing (build sample phrase written).place =
        if inner.isOpen then nothing
        else matchesLeftOut casing message context nothing sample.place ||
          matchesKey casing message context phrase.key)
    (read : ∀ sample phrase written message context,
      matchesKey casing message context ((build sample phrase written).place.read arguments).1 =
        (matchesKey casing message context (sample.place.read arguments).1 ||
          matchesKey casing message context phrase.key)) :
    (Answers criterion arguments inner true false → Answers criterion arguments whole true false) ∧
      (inner.isOpen = true ∨ Answers criterion arguments inner false true →
        Answers criterion arguments whole false true) := by
  obtain ⟨never, isNever, neverWritten⟩ := exists_constant casing false
  obtain ⟨always, isAlways, alwaysWritten⟩ := exists_constant casing true
  constructor
  · rintro ⟨sample, answers⟩
    refine ⟨build sample never neverWritten, fun message context => ?_⟩
    obtain ⟨without, within⟩ := answers message context
    rw [left, read, without, within, isNever]
    simp
  · rintro (isOpen | ⟨sample, answers⟩)
    · obtain ⟨sample⟩ := @nonempty_sample casing criterion inner
      refine ⟨build sample always alwaysWritten, fun message context => ?_⟩
      rw [left, read, isAlways, isOpen]
      simp
    · refine ⟨build sample never neverWritten, fun message context => ?_⟩
      obtain ⟨without, within⟩ := answers message context
      rw [left, read, without, within, isNever]
      simp

/-- Where the condition on a place fails, some keys around the criterion give different
answers. -/
theorem answers_of_not_keeps (stays : shape.leaks (!arguments.isEmpty) = false) :
    (shape.keeps (!arguments.isEmpty) true = false → Answers criterion arguments shape true false) ∧
      (shape.keeps (!arguments.isEmpty) false = false → Answers criterion arguments shape false true) := by
  induction shape with
  | here =>
    refine ⟨fun fails => absurd fails (by simp [Shape.keeps]), fun _ => ⟨.here, ?_⟩⟩
    exact fun message context => ⟨rfl, by simp [Sample.here, Place.read, matchesKey]⟩
  | not inner ih =>
    obtain ⟨grows, shrinks⟩ := ih stays
    have negated : ∀ answer, Answers criterion arguments inner (!answer) answer →
        Answers criterion arguments (.not inner) answer !answer := by
      rintro answer ⟨sample, answers⟩
      refine ⟨sample.not, fun message context => ?_⟩
      obtain ⟨without, within⟩ := answers message context
      rw [Sample.not, matchesLeftOut_not, without]
      exact ⟨Bool.not_not answer, by rw [Place.read, matchesKey, within]⟩
    exact ⟨fun fails => negated true (shrinks fails), fun fails => negated false (grows fails)⟩
  | orRight inner ih =>
    obtain ⟨grows, shrinks⟩ := ih stays
    obtain ⟨grown, shrunk⟩ := @answers_branch casing criterion arguments inner (.orRight inner)
      (fun sample _ written => sample.orRight written)
      (fun sample phrase written message context nothing => by
        have left := @matchesLeftOut_orRight casing message context Keyword.or.spelling phrase
          sample.place nothing
        rw [sample.isShape] at left
        exact left)
      (fun sample phrase written message context => by
        simp [Sample.orRight, Place.read, matchesKey, Bool.or_comm])
    refine ⟨fun fails => grown (grows fails), fun fails => shrunk ?_⟩
    rcases Bool.and_eq_false_iff.mp fails with isOpen | fails
    · exact .inl (by simpa using isOpen)
    · exact .inr (shrinks fails)
  | orLeft inner ih =>
    obtain ⟨innerStays, -⟩ := Bool.or_eq_false_iff.mp stays
    obtain ⟨grows, shrinks⟩ := ih innerStays
    obtain ⟨grown, shrunk⟩ := @answers_branch casing criterion arguments inner (.orLeft inner)
      (fun sample _ written => sample.orLeft written)
      (fun sample phrase written message context nothing => by
        have left := @matchesLeftOut_orLeft casing message context Keyword.or.spelling phrase
          sample.place nothing
        rw [sample.isShape] at left
        exact left)
      (fun sample phrase written message context => by
        rw [← sample.isShape] at stays
        rw [Sample.orLeft, Place.read_orLeft stays, matchesKey])
    refine ⟨fun fails => grown (grows fails), fun fails => shrunk ?_⟩
    rcases Bool.and_eq_false_iff.mp fails with isOpen | fails
    · exact .inl (by simpa using isOpen)
    · exact .inr (shrinks fails)
  | group inner ih =>
    obtain ⟨always, isAlways, written⟩ := exists_constant casing true
    have others : ∀ message context, matchesAll casing message context (KeyPhrase.keysOf [always]) =
        true := by
      intro message context
      simp [matchesAll, isAlways]
    constructor
    · intro fails
      cases innerStays : inner.leaks (!arguments.isEmpty) with
      | true =>
        obtain ⟨sample, spilled⟩ := spills_of_leaks innerStays
        refine ⟨sample.group written, fun message context => ?_⟩
        have isOpen : sample.place.shape.isOpen = true := by
          rw [sample.isShape]
          exact (Shape.of_leaks innerStays).1
        rw [Sample.group, matchesLeftOut_group, matchesKey_read_group, others, spilled,
          matchesLeftOut_of_isOpen isOpen]
        simp [matchesAll]
      | false =>
        have notKept : inner.keeps (!arguments.isEmpty) true = false := by
          simpa [Shape.keeps, innerStays] using fails
        obtain ⟨sample, answers⟩ := (ih innerStays).1 notKept
        refine ⟨sample.group written, fun message context => ?_⟩
        obtain ⟨without, within⟩ := answers message context
        rw [Sample.group, matchesLeftOut_group, matchesKey_read_group, others, without, within]
        exact ⟨rfl, rfl⟩
    · intro fails
      obtain ⟨closed, notKept⟩ := Bool.or_eq_false_iff.mp fails
      have innerStays := @Shape.not_leaks_of_closed (!arguments.isEmpty) inner closed
      obtain ⟨sample, answers⟩ := (ih innerStays).2 notKept
      refine ⟨sample.group written, fun message context => ?_⟩
      obtain ⟨without, within⟩ := answers message context
      have isClosed : sample.place.shape.isOpen = false := by
        rw [sample.isShape]
        exact closed
      have nothingLeft : (sample.place.read arguments).2 = [] := by
        have count := @Place.length_read casing arguments sample.place
        rw [isClosed, if_neg (by decide)] at count
        exact List.eq_nil_of_length_eq_zero count
      rw [matchesLeftOut_of_closed isClosed] at without
      rw [Sample.group, matchesLeftOut_group, matchesKey_read_group, others, without, within, nothingLeft]
      simp [matchesAll]

end Breaks

/-! ## The promise -/

section Promise

variable {casing : Casing}

/-- What may stand before the keys of a query. -/
def IsCharset (casing : Casing) (tokens : List Token) : Prop :=
  tokens = [] ∨ ∃ text name, Keyword.ofName (casing.toUppercase text) = some .charset ∧
    name.IsArgument ∧ tokens = [.atom text, name]

/-- Fuel beyond twice the number of tokens changes nothing, however much it is. -/
theorem parse_fuel_add (extra : Nat) : (∀ fuel tokens inGroup, 2 * tokens.length < fuel →
      parseKeyList casing (fuel + extra) tokens inGroup = parseKeyList casing fuel tokens inGroup) ∧
      ∀ fuel tokens, 2 * tokens.length ≤ fuel →
        parseKey casing (fuel + extra) tokens = parseKey casing fuel tokens := by
  induction extra with
  | zero => exact ⟨fun _ _ _ _ => rfl, fun _ _ _ => rfl⟩
  | succ extra ih =>
    constructor
    · intro fuel tokens inGroup enough
      rw [← ih.1 fuel tokens inGroup enough]
      exact ((parse_fuel_succ casing (fuel + extra)).1 tokens inGroup (by omega)).symm
    · intro fuel tokens enough
      rw [← ih.2 fuel tokens enough]
      exact ((parse_fuel_succ casing (fuel + extra)).2 tokens (by omega)).symm

theorem parseKey_isSome {first : Token} (opens : first ≠ .rparen) {fuel : Nat} (positive : 1 ≤ fuel)
    (later : List Token) : ∃ key, (parseKey casing fuel (first :: later)).1 = some key := by
  obtain ⟨fuel, rfl⟩ : ∃ smaller, fuel = smaller + 1 := ⟨fuel - 1, by omega⟩
  cases first with
  | rparen => exact absurd rfl opens
  | lparen => exact ⟨_, rfl⟩
  | atom text => exact ⟨_, rfl⟩
  | quoted text => exact ⟨_, rfl⟩

/-- The character set is skipped. -/
theorem parseKeyList_charset {charset : List Token} (isCharset : IsCharset casing charset)
    {tokens : List Token} (opens : ∃ first later, tokens = first :: later ∧ first ≠ .rparen) :
    parseKeyList casing (2 * (charset ++ tokens).length + 1) (charset ++ tokens) false =
      parseKeyList casing (2 * tokens.length + 1) tokens false := by
  rcases isCharset with rfl | ⟨text, name, named, isArgument, rfl⟩
  · rfl
  · obtain ⟨first, later, rfl, opens⟩ := opens
    obtain ⟨value, taken⟩ := nextArg_of_isArgument isArgument
    obtain ⟨key, isKey⟩ := @parseKey_isSome casing first opens (2 * (first :: later).length)
      (by rw [List.length_cons]; omega) later
    have width : (first :: later).length = later.length + 1 := rfl
    have shorter := length_parseKey_lt casing (2 * (first :: later).length) first later
      (by rw [List.length_cons]; omega)
    have sameKey := (@parse_fuel_add casing 3).2 (2 * (first :: later).length) (first :: later) (Nat.le_refl _)
    have sameList := (@parse_fuel_add casing 4).1 (2 * (first :: later).length)
      (parseKey casing (2 * (first :: later).length) (first :: later)).2 false
      (by omega)
    have fuel : 2 * ([.atom text, name] ++ first :: later).length + 1 =
        2 * (first :: later).length + 4 + 1 := by
      simp only [List.length_append, List.length_cons, List.length_nil]
      omega
    have skipped : parseKey casing (2 * (first :: later).length + 4) (.atom text :: name :: first :: later) =
          parseKey casing (2 * (first :: later).length) (first :: later) := by
      rw [parseKey, parseAtomKey, named]
      simp only [taken, sameKey, isKey, Option.getD_some]
      rw [← isKey]
    rw [fuel, List.cons_append, List.singleton_append, parseKeyList_open casing (by simp), skipped,
      sameList, parseKeyList_open casing opens]

/-- Every message that a query matches without the criterion is matched with it, whatever the
keys around it are and however the query is written. -/
def HidesNothing (criterion : Criterion casing) (shape : Shape) : Prop :=
  ∀ place : Place casing, place.shape = shape →
    ∀ (charset : List Token) (before after : List (KeyPhrase casing)) (args : Text),
    IsCharset casing charset →
    tokenize args = charset ++ (KeyPhrase.tokensOf before ++
      (place.tokens criterion ++ KeyPhrase.tokensOf after)) →
    ∀ message context, matchesAll casing message context
        (KeyPhrase.keysOf before ++ place.leftOut.toList ++ KeyPhrase.keysOf after) = true →
      matchesKey casing message context (parse casing args) = true

/-- What the parser makes of a query with a criterion it does not know. -/
theorem parse_place {criterion : Criterion casing} {arguments : List (KeyPhrase casing)}
    (areArguments : KeyPhrase.tokensOf arguments = criterion.arguments) (place : Place casing)
    {charset : List Token} (isCharset : IsCharset casing charset) {before after : List (KeyPhrase casing)}
    {args : Text}
    (written : tokenize args = charset ++ (KeyPhrase.tokensOf before ++
      (place.tokens criterion ++ KeyPhrase.tokensOf after))) :
    parse casing args = foldAnd (KeyPhrase.keysOf before ++ (place.read arguments).1 ::
      KeyPhrase.keysOf ((place.read arguments).2 ++ after)) := by
  have atEnd : ∀ fuel, 1 ≤ fuel → parseKeyList casing fuel [] false = ([], []) := by
    intro fuel positive
    obtain ⟨fuel, rfl⟩ : ∃ smaller, fuel = smaller + 1 := ⟨fuel - 1, by omega⟩
    rw [parseKeyList]
  have opens : ∃ first later, KeyPhrase.tokensOf before ++
      (place.tokens criterion ++ KeyPhrase.tokensOf after) = first :: later ∧ first ≠ .rparen := by
    cases before with
    | nil =>
      obtain ⟨first, later, split, opens⟩ := @Place.opens casing criterion place
      exact ⟨first, later ++ KeyPhrase.tokensOf after, by simp [split], opens⟩
    | cons phrase rest =>
      obtain ⟨first, later, split, opens⟩ := phrase.opens
      exact ⟨first, later ++ (KeyPhrase.tokensOf rest ++
        (place.tokens criterion ++ KeyPhrase.tokensOf after)), by simp [split], opens⟩
  have list := Place.parseKeyList_tokens (place.parseKey_tokens areArguments) before after
    (Nat.le_refl 1) atEnd (show _ ≤ 2 * (KeyPhrase.tokensOf before ++
      (place.tokens criterion ++ KeyPhrase.tokensOf after)).length + 1 by
        simp only [List.length_append]
        omega)
  rw [List.append_nil] at list
  rw [parse, written, parseKeyList_charset isCharset opens, list]

theorem matchesAll_leftOut {message : MsgView} {context : SearchContext} (place : Place casing) :
    matchesAll casing message context place.leftOut.toList = matchesLeftOut casing message context true place := by
  cases left : place.leftOut <;> simp [matchesLeftOut, left, matchesAll]

/-- A message, and an index that knows none. -/
def someMessage : MsgView := ⟨1, 10, "mail", [], [], [], [], [], [], 0, 0, true, false, 5000⟩

def noHits : SearchContext := ⟨.empty⟩

/-- A place with different answers alone is a query that hides a message. -/
theorem not_hidesNothing {criterion : Criterion casing} {arguments : List (KeyPhrase casing)}
    (areArguments : KeyPhrase.tokensOf arguments = criterion.arguments) {shape : Shape}
    (sample : Sample criterion shape) (without : matchesLeftOut casing someMessage noHits true sample.place = true)
    (within : matchesKey casing someMessage noHits (sample.place.read arguments).1 = false ∨
      matchesAll casing someMessage noHits (KeyPhrase.keysOf (sample.place.read arguments).2) = false) :
    ¬ HidesNothing criterion shape := by
  intro hides
  have written : tokenize (printTokens (sample.place.tokens criterion)) =
      [] ++ (@KeyPhrase.tokensOf casing [] ++
        (sample.place.tokens criterion ++ @KeyPhrase.tokensOf casing [])) := by
    rw [tokenize_printTokens sample.written]
    simp
  have matched := hides sample.place sample.isShape [] [] [] _ (.inl rfl) written someMessage noHits
    (by simpa [matchesAll_leftOut] using without)
  rw [parse_place areArguments sample.place (.inl rfl) written, matchesKey_foldAnd] at matched
  simp only [KeyPhrase.keysOf_nil, List.nil_append, List.append_nil, matchesAll, Bool.and_eq_true] at matched
  rcases within with missed | missed
  · rw [missed] at matched
    cases matched.1
  · rw [missed] at matched
    cases matched.2

/-- A criterion whose arguments are no criteria hides nothing exactly in the places that
`harmless` tells. -/
theorem hidesNothing_iff (criterion : Criterion casing) (shape : Shape)
    (inert : ∀ argument ∈ criterion.arguments, argument.IsInert casing) :
    HidesNothing criterion shape ↔ shape.harmless (!criterion.arguments.isEmpty) = true := by
  obtain ⟨arguments, areArguments, allKeys, count⟩ := exists_phrases inert
  have sameEmpty : criterion.arguments.isEmpty = arguments.isEmpty := by
    rw [Bool.eq_iff_iff, List.isEmpty_iff_length_eq_zero, List.isEmpty_iff_length_eq_zero, count]
  rw [sameEmpty]
  constructor
  · intro hides
    by_contra harmful
    cases stays : shape.leaks (!arguments.isEmpty) with
    | true =>
      obtain ⟨sample, spilled⟩ := @spills_of_leaks casing criterion arguments shape stays
      have isOpen : sample.place.shape.isOpen = true := by
        rw [sample.isShape]
        exact (Shape.of_leaks stays).1
      exact not_hidesNothing areArguments sample (matchesLeftOut_of_isOpen isOpen true)
        (.inr (spilled someMessage noHits)) hides
    | false =>
      have notKept : shape.keeps (!arguments.isEmpty) true = false := by
        simpa [Shape.harmless, stays] using harmful
      obtain ⟨sample, answers⟩ :=
        (@answers_of_not_keeps casing criterion arguments shape stays).1 notKept
      obtain ⟨without, within⟩ := answers someMessage noHits
      exact not_hidesNothing areArguments sample without (.inl within) hides
  · rintro harmless place rfl charset before after args isCharset written message context matched
    obtain ⟨kept, stays⟩ := Bool.and_eq_true_iff.mp harmless
    rw [Bool.not_eq_true'] at stays
    rw [matchesAll_append, matchesAll_append, matchesAll_leftOut, Bool.and_eq_true,
      Bool.and_eq_true] at matched
    obtain ⟨⟨first, left⟩, last⟩ := matched
    have within := (Place.keeps_read allKeys stays).1 kept left
    have behind := @matchesAll_left_behind casing message context arguments allKeys place stays
    rw [parse_place areArguments place isCharset written, matchesKey_foldAnd, matchesAll_append, matchesAll,
      KeyPhrase.keysOf_append, matchesAll_append, first, within, behind, last]
    rfl

/-- `XFOO`, a criterion of no arguments. -/
def xfoo : Criterion .ascii where
  name := "XFOO".toList
  arguments := []
  solid := by decide
  unnamed := by decide +kernel
  noSet := by decide
  given := by simp

/-- `XFOO "x"`, the same with a text. -/
def xfooText : Criterion .ascii :=
  { xfoo with arguments := [.quoted "x".toList], given := List.forall_mem_singleton.mpr ⟨trivial, trivial⟩ }

theorem hidesNothing_xfoo : HidesNothing xfooText (.not (.not (.group .here))) :=
  (hidesNothing_iff xfooText (.not (.not (.group .here))) (List.forall_mem_singleton.mpr trivial)).mpr (by decide)

/-- `NOT XFOO` matches no message, though nothing is left to match without the criterion. -/
theorem not_xfoo_hides :
    let place : Place .ascii := .not Keyword.not.spelling .here
    tokenize "NOT XFOO".toList = place.tokens xfoo ∧ place.leftOut = none ∧
      ∀ message context, matchesKey .ascii message context (parse .ascii "NOT XFOO".toList) = false := by
  have first := @tokenize_atom "NOT".toList " XFOO".toList (by decide) (delimited_cons (by decide))
  have second := @tokenize_atom "XFOO".toList [] (by decide) delimited_nil
  have tokens : tokenize "NOT XFOO".toList = (Place.not Keyword.not.spelling .here).tokens xfoo := by
    rw [List.append_nil] at second
    refine first.trans ?_
    rw [show " XFOO".toList = ' ' :: "XFOO".toList from rfl, tokenize_blank, second, tokenize]
    rfl
  refine ⟨tokens, rfl, fun message context => ?_⟩
  have written : tokenize "NOT XFOO".toList = [] ++ (@KeyPhrase.tokensOf .ascii [] ++
      ((Place.not Keyword.not.spelling .here).tokens xfoo ++ @KeyPhrase.tokensOf .ascii [])) := by
    rw [tokens]
    rfl
  have read := @parse_place .ascii xfoo [] rfl (.not Keyword.not.spelling .here) [] (.inl rfl) [] [] _ written
  rw [read]
  rfl

end Promise

end TutaBridge.Imap
