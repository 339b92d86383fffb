import Mathlib.Data.List.Basic

/-!
# Readers

A reader takes a value off the front of an input. It reads what was written for a value when
it finds that value and leaves whatever follows, and readers that follow each other read what
was written in the same order.
-/

namespace TutaBridge.Std

/-- A reader of values from a list of symbols. -/
abbrev Reader (σ α : Type) := StateT (List σ) Option α

namespace Reader

variable {σ α β : Type}

/-- Reads these symbols. -/
def expect [DecidableEq σ] (symbols : List σ) : Reader σ Unit := fun input =>
  if symbols.isPrefixOf input then some ((), input.drop symbols.length) else none

/-- Reads a number of symbols. -/
def take (count : Nat) : Reader σ (List σ) := fun input =>
  if count ≤ input.length then some (input.take count, input.drop count) else none

/-- The symbols of a kind at the front. -/
def takeWhile (isKind : σ → Bool) : Reader σ (List σ) := fun input =>
  some (input.takeWhile isKind, input.dropWhile isKind)

/-- Fails unless the condition holds. -/
def require (condition : Prop) [Decidable condition] : Reader σ Unit := fun input =>
  if condition then some ((), input) else none

/-- Items up to a closing symbol, one at least. A separator between two of them may be left
out. -/
def list [DecidableEq σ] (item : Reader σ α) (separator close : σ) : (fuel : Nat) → Reader σ (List α)
  | 0, _ => none
  | fuel + 1, input =>
    (item input).bind fun (first, behind) =>
      match behind with
      | [] => none
      | next :: later =>
        if next = close then some ([first], later)
        else
          (list item separator close fuel (if next = separator then later else next :: later)).map
            fun (items, rest) => (first :: items, rest)

/-- One reader where the next symbol is this one, another where it is not. -/
def before [DecidableEq σ] (symbol : σ) (present absent : Reader σ α) : Reader σ α := fun input =>
  if input.head? = some symbol then present input else absent input

/-- Items as long as the next symbol is the one they begin with. -/
def many [DecidableEq σ] (symbol : σ) (item : Reader σ α) : (fuel : Nat) → Reader σ (List α)
  | 0 => pure []
  | fuel + 1 =>
    before symbol (do
      let first ← item
      let later ← many symbol item fuel
      return first :: later) (pure [])

/-- Items to the last, of which each takes a symbol at least. -/
def items [DecidableEq σ] (symbol : σ) (item : Reader σ α) : Reader σ (List α) := fun input =>
  many symbol item input.length input

/-! ## What is written is read -/

/-- Reading finds the value of what was written and leaves what follows. -/
def Reads (reader : Reader σ α) (written : List σ) (value : α) : Prop :=
  ∀ rest, reader (written ++ rest) = some (value, rest)

namespace Reads

theorem pure (value : α) : Reads (Pure.pure value : Reader σ α) [] value := fun _ => rfl

theorem bind {first : Reader σ α} {next : α → Reader σ β} {one two : List σ} {value : α}
    {result : β} (reads : Reads first one value) (later : Reads (next value) two result) :
    Reads (first >>= next) (one ++ two) result := by
  intro rest
  show (first (one ++ two ++ rest)).bind (fun read => next read.1 read.2) = _
  rw [List.append_assoc, reads]
  exact later rest

/-- A reader that checks something of the value first. -/
theorem guarded {first : Reader σ α} {next : α → Reader σ β} {written : List σ} {value : α}
    {result : β} (reads : Reads first written value) (later : Reads (next value) [] result) :
    Reads (first >>= next) written result := by
  have both := reads.bind later
  rwa [List.append_nil] at both

end Reads

/-! ## What is answered -/

/-- What a reader answers on what was written, with anything behind it that may follow. -/
def Answers (reader : Reader σ α) (written : List σ) (follows : List σ → Prop) (answer : Option α) :
    Prop :=
  ∀ rest, follows rest → reader (written ++ rest) = answer.map fun value => (value, rest)

/-- Whatever follows. -/
def Anything (_ : List σ) : Prop := True

namespace Answers

variable {first : Reader σ α} {next : α → Reader σ β} {one two : List σ} {follows : List σ → Prop}

theorem reads {value : α} (answers : Answers first one Anything (some value)) : Reads first one value :=
  fun rest => answers rest trivial

theorem pure (value : α) : Answers (Pure.pure value : Reader σ α) [] follows (some value) :=
  fun _ _ => rfl

theorem map {answer : Option α} (answers : Answers first one follows answer) (change : α → β) :
    Answers (change <$> first) one follows (answer.map change) := by
  intro rest follow
  show (first (one ++ rest)).bind (fun read => some (change read.1, read.2)) = _
  rw [answers rest follow]
  cases answer <;> rfl

/-- The second reader is asked for what the first one answers. -/
theorem bind {stop : List σ → Prop} {answer : Option α} (answers : Answers first one stop answer)
    (result : α → Option β) (stops : ∀ rest, follows rest → stop (two ++ rest))
    (later : ∀ value ∈ answer, Answers (next value) two follows (result value)) :
    Answers (first >>= next) (one ++ two) follows (answer.bind result) := by
  intro rest follow
  show (first (one ++ two ++ rest)).bind (fun read => next read.1 read.2) = _
  rw [List.append_assoc, answers _ (stops rest follow)]
  cases answer with
  | none => rfl
  | some value => exact later value rfl rest follow

/-- A reader that checks something of the answer. -/
theorem guarded {answer : Option α} (answers : Answers first one follows answer) (result : α → Option β)
    (later : ∀ value ∈ answer, Answers (next value) [] follows (result value)) :
    Answers (first >>= next) one follows (answer.bind result) := by
  have both : Answers (first >>= next) (one ++ []) follows (answer.bind result) :=
    answers.bind result (fun _ follow => follow) later
  rwa [List.append_nil] at both

end Answers

/-- What is read comes before what is answered. -/
theorem Reads.andThen {first : Reader σ α} {next : α → Reader σ β} {one two : List σ} {value : α}
    {follows : List σ → Prop} {answer : Option β} (reads : Reads first one value)
    (later : Answers (next value) two follows answer) : Answers (first >>= next) (one ++ two) follows answer := by
  intro rest follow
  show (first (one ++ two ++ rest)).bind (fun read => next read.1 read.2) = _
  rw [List.append_assoc, reads]
  exact later rest follow

theorem Reads.answers {reader : Reader σ α} {written : List σ} {value : α}
    (reads : Reads reader written value) (follows : List σ → Prop) : Answers reader written follows (some value) :=
  fun rest _ => reads rest

section Symbols

theorem reads_take (symbols : List σ) : Reads (take symbols.length) symbols symbols := by
  intro rest
  have enough : symbols.length ≤ (symbols ++ rest).length := by
    rw [List.length_append]
    omega
  rw [take, if_pos enough, List.take_left, List.drop_left]

theorem reads_require {condition : Prop} [Decidable condition] (holds : condition) :
    Reads (require condition : Reader σ Unit) [] () := by
  intro rest
  rw [require, if_pos holds]
  rfl

/-- The symbols of a kind end before one that is not. -/
theorem answers_takeWhile {isKind : σ → Bool} {symbols : List σ} (kind : ∀ symbol ∈ symbols, isKind symbol = true) :
    Answers (takeWhile isKind) symbols (fun rest => ∀ symbol ∈ rest.head?, isKind symbol = false) (some symbols) := by
  intro rest stops
  rw [takeWhile, List.takeWhile_append_of_pos kind, List.dropWhile_append_of_pos kind]
  cases rest with
  | nil => simp
  | cons stop later =>
    have stopped := stops stop rfl
    rw [List.takeWhile_cons_of_neg (by simp [stopped]), List.dropWhile_cons_of_neg (by simp [stopped]),
      List.append_nil]
    rfl

variable [DecidableEq σ]

theorem answers_before {symbol : σ} {present absent : Reader σ α} {written : List σ}
    {follows : List σ → Prop} {answer : Option α} (begins : written.head? = some symbol)
    (answers : Answers present written follows answer) :
    Answers (before symbol present absent) written follows answer := by
  intro rest follow
  have isNext : (written ++ rest).head? = some symbol := by
    rw [List.head?_append, begins, Option.some_or]
  rw [before, if_pos isNext]
  exact answers rest follow

theorem answers_absent {symbol : σ} {present absent : Reader σ α} {written : List σ}
    {follows : List σ → Prop} {answer : Option α}
    (differs : ∀ rest, follows rest → (written ++ rest).head? ≠ some symbol)
    (answers : Answers absent written follows answer) :
    Answers (before symbol present absent) written follows answer := by
  intro rest follow
  rw [before, if_neg (differs rest follow)]
  exact answers rest follow

section

variable {symbol : σ} {item : Reader σ α} {write : β → List σ} {answer : β → Option α}
    {written : List β}
    (answers : ∀ value ∈ written, Answers item (write value) Anything (answer value))
    (begins : ∀ value ∈ written, (write value).head? = some symbol)

include answers begins

/-- What is written item by item is answered item by item. -/
theorem answers_many {fuel : Nat} (enough : written.length ≤ fuel) :
    Answers (many symbol item fuel) (written.flatMap write) (fun rest => rest.head? ≠ some symbol)
      (written.mapM answer) := by
  induction written generalizing fuel with
  | nil =>
    cases fuel with
    | zero => exact Answers.pure []
    | succ fuel => exact answers_absent (fun rest differs => differs) (Answers.pure [])
  | cons first others ih =>
    obtain ⟨answersFirst, answersOthers⟩ := List.forall_mem_cons.mp answers
    obtain ⟨beginsFirst, beginsOthers⟩ := List.forall_mem_cons.mp begins
    cases fuel with
    | zero => exact absurd enough (Nat.not_succ_le_zero _)
    | succ fuel =>
      have later := ih answersOthers beginsOthers (Nat.le_of_succ_le_succ enough)
      rw [many, List.flatMap_cons, List.mapM_cons]
      refine answers_before (by rw [List.head?_append, beginsFirst, Option.some_or]) ?_
      exact answersFirst.bind _ (fun _ _ => trivial) fun value _ =>
        later.guarded _ fun values _ => Answers.pure (value :: values)

/-- What is written begins with as many symbols as there are items, or more. -/
theorem answers_items :
    Answers (items symbol item) (written.flatMap write) (fun rest => rest.head? ≠ some symbol)
      (written.mapM answer) := by
  intro rest follow
  have long : written.length ≤ (written.flatMap write).length := by
    clear answers
    induction written with
    | nil => exact Nat.zero_le _
    | cons first others ih =>
      obtain ⟨beginsFirst, beginsOthers⟩ := List.forall_mem_cons.mp begins
      have notEmpty : 0 < (write first).length :=
        List.length_pos_iff.mpr fun isEmpty => by simp [isEmpty] at beginsFirst
      have later := ih beginsOthers
      rw [List.flatMap_cons, List.length_append, List.length_cons]
      omega
  refine answers_many answers begins ?_ rest follow
  rw [List.length_append]
  omega

end

theorem reads_expect (symbols : List σ) : Reads (expect symbols) symbols () := by
  intro rest
  have isPrefix : symbols.isPrefixOf (symbols ++ rest) = true :=
    List.isPrefixOf_iff_prefix.mpr (List.prefix_append symbols rest)
  rw [expect, isPrefix, if_pos rfl, List.drop_left]

/-- What stands next where an item of a list ends. -/
def Separated (separator close : σ) (rest : List σ) : Prop :=
  rest.head? = some separator ∨ rest.head? = some close

/-- A list is read whose items are written with separators between them, and each is read where a
separator follows it or the end. -/
theorem answers_list {item : Reader σ α} {separator close : σ} {write : β → List σ} {value : β → α} {items : List β}
    (answers : ∀ item' ∈ items, Answers item (write item') (Separated separator close) (some (value item')))
    (notEmpty : items ≠ []) (different : separator ≠ close) {fuel : Nat} (enough : items.length ≤ fuel) :
    Reads (list item separator close fuel)
      ([separator].intercalate (items.map write) ++ [close]) (items.map value) := by
  induction items generalizing fuel with
  | nil => exact absurd rfl notEmpty
  | cons first others ih =>
    obtain ⟨answersFirst, answersOthers⟩ := List.forall_mem_cons.mp answers
    intro rest
    cases fuel with
    | zero => exact absurd enough (Nat.not_succ_le_zero _)
    | succ fuel =>
      rw [list]
      cases others with
      | nil =>
        have single : [separator].intercalate ([first].map write) = write first := by simp
        rw [single, List.append_assoc, answersFirst _ (.inr rfl), Option.map_some, Option.bind_some,
          List.singleton_append]
        exact if_pos rfl
      | cons second others =>
        have later := ih answersOthers (List.cons_ne_nil _ _) (Nat.le_of_succ_le_succ enough) rest
        rw [List.map_cons, List.map_cons, List.intercalate_cons_cons, ← List.map_cons,
          List.append_assoc, List.append_assoc, List.append_assoc, answersFirst _ (.inl rfl),
          Option.map_some, Option.bind_some, List.singleton_append]
        dsimp only
        rw [if_neg different, if_pos rfl, ← List.append_assoc, later]
        rfl

/-- A list is read whose items are written with separators between them. -/
theorem reads_list {item : Reader σ α} {separator close : σ} {write : β → List σ} {value : β → α}
    {items : List β} (reads : ∀ item' ∈ items, Reads item (write item') (value item'))
    (notEmpty : items ≠ []) (different : separator ≠ close) {fuel : Nat} (enough : items.length ≤ fuel) :
    Reads (list item separator close fuel) ([separator].intercalate (items.map write) ++ [close]) (items.map value) :=
  answers_list (fun item' mem => (reads item' mem).answers _) notEmpty different enough

end Symbols

end Reader

end TutaBridge.Std
