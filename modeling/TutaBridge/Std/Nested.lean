import TutaBridge.Std.Reader

/-!
# Values in parentheses

A value in parentheses ends at the parenthesis that closes it. What stands in quotes opens and closes
nothing, and an escape in quotes takes the next symbol with it. A reader that knows no more than this
takes the value as it stands, whatever is in it.
-/

namespace TutaBridge.Std

/-- The symbols that a value is delimited with. -/
structure Marks (σ : Type) where
  opened : σ
  closed : σ
  quote : σ
  escape : σ
  distinct : [opened, closed, quote, escape].Nodup

namespace Marks

variable {σ : Type} (marks : Marks σ)

theorem opened_ne : marks.opened ≠ marks.closed := by
  have distinct := marks.distinct
  simp only [List.nodup_cons, List.mem_cons, not_or] at distinct
  exact distinct.1.1

theorem quote_ne : marks.quote ≠ marks.closed ∧ marks.quote ≠ marks.opened ∧ marks.quote ≠ marks.escape := by
  have distinct := marks.distinct
  simp only [List.nodup_cons, List.mem_cons, not_or] at distinct
  exact ⟨fun same => distinct.2.1.1 same.symm, fun same => distinct.1.2.1 same.symm, distinct.2.2.1.1⟩

/-- Where a symbol stands: in quotes or not, or behind an escape. -/
inductive Place where
  | outside
  | quoted
  | escaped
deriving DecidableEq, Repr

variable [DecidableEq σ]

/-- The rest of a value that so many parentheses are to close, and what stands behind it. -/
def skip : (depth : Nat) → Place → List σ → Option (List σ × List σ)
  | _, _, [] => none
  | depth, .outside, symbol :: rest =>
    if symbol = marks.closed ∧ depth ≤ 1 then some ([symbol], rest)
    else
      (if symbol = marks.closed then skip (depth - 1) .outside rest
        else if symbol = marks.opened then skip (depth + 1) .outside rest
        else if symbol = marks.quote then skip depth .quoted rest
        else skip depth .outside rest).map fun read => (symbol :: read.1, read.2)
  | depth, .quoted, symbol :: rest =>
    (if symbol = marks.escape then skip depth .escaped rest
      else if symbol = marks.quote then skip depth .outside rest
      else skip depth .quoted rest).map fun read => (symbol :: read.1, read.2)
  | depth, .escaped, symbol :: rest =>
    (skip depth .quoted rest).map fun read => (symbol :: read.1, read.2)

/-- A value in parentheses, as it stands. -/
def readGroup : Reader σ (List σ) := fun input =>
  match input with
  | [] => none
  | symbol :: rest =>
    if symbol = marks.opened then (marks.skip 1 .outside rest).map fun read => (symbol :: read.1, read.2)
    else none

/-- As many parentheses are closed as are opened, and none that was opened before. -/
def Level (symbols : List σ) : Prop :=
  ∀ depth rest, marks.skip (depth + 1) .outside (symbols ++ rest) =
    (marks.skip (depth + 1) .outside rest).map fun read => (symbols ++ read.1, read.2)

/-- The inside of quotes ends where it began. -/
def Inside (symbols : List σ) : Prop :=
  ∀ depth rest, marks.skip depth .quoted (symbols ++ rest) =
    (marks.skip depth .quoted rest).map fun read => (symbols ++ read.1, read.2)

variable {marks}

namespace Inside

theorem nil : marks.Inside [] := fun depth rest => by
  rw [List.nil_append]
  exact Option.map_id'.symm

theorem append {first second : List σ} (one : marks.Inside first) (two : marks.Inside second) :
    marks.Inside (first ++ second) := by
  intro depth rest
  rw [List.append_assoc, one, two, Option.map_map]
  refine congrArg (Option.map · _) (funext fun read => ?_)
  rw [Function.comp_apply, List.append_assoc]

theorem flatMap {α : Type} {items : List α} {write : α → List σ}
    (each : ∀ item ∈ items, marks.Inside (write item)) : marks.Inside (items.flatMap write) := by
  induction items with
  | nil => exact nil
  | cons first others ih =>
    obtain ⟨one, later⟩ := List.forall_mem_cons.mp each
    rw [List.flatMap_cons]
    exact one.append (ih later)

theorem plain {symbols : List σ} (others : ∀ symbol ∈ symbols, symbol ≠ marks.escape ∧ symbol ≠ marks.quote) :
    marks.Inside symbols := by
  induction symbols with
  | nil => exact nil
  | cons first rest ih =>
    obtain ⟨noMark, later⟩ := List.forall_mem_cons.mp others
    intro depth behind
    rw [List.cons_append, skip, if_neg noMark.1, if_neg noMark.2, ih later, Option.map_map]
    rfl

/-- An escape takes any symbol with it. -/
theorem escape (symbol : σ) : marks.Inside [marks.escape, symbol] := by
  intro depth rest
  rw [List.cons_append, skip, if_pos rfl, List.cons_append, skip, Option.map_map]
  rfl

end Inside

namespace Level

theorem nil : marks.Level [] := fun depth rest => by
  rw [List.nil_append]
  exact Option.map_id'.symm

theorem append {first second : List σ} (one : marks.Level first) (two : marks.Level second) :
    marks.Level (first ++ second) := by
  intro depth rest
  rw [List.append_assoc, one, two, Option.map_map]
  refine congrArg (Option.map · _) (funext fun read => ?_)
  rw [Function.comp_apply, List.append_assoc]

theorem flatMap {α : Type} {items : List α} {write : α → List σ}
    (each : ∀ item ∈ items, marks.Level (write item)) : marks.Level (items.flatMap write) := by
  induction items with
  | nil => exact nil
  | cons first others ih =>
    obtain ⟨one, later⟩ := List.forall_mem_cons.mp each
    rw [List.flatMap_cons]
    exact one.append (ih later)

theorem plain {symbols : List σ} (others : ∀ symbol ∈ symbols,
    symbol ≠ marks.closed ∧ symbol ≠ marks.opened ∧ symbol ≠ marks.quote) : marks.Level symbols := by
  induction symbols with
  | nil => exact nil
  | cons first rest ih =>
    obtain ⟨⟨noClose, noOpen, noQuote⟩, later⟩ := List.forall_mem_cons.mp others
    intro depth behind
    rw [List.cons_append, skip, if_neg fun closes => noClose closes.1, if_neg noClose, if_neg noOpen,
      if_neg noQuote, ih later, Option.map_map]
    rfl

/-- What stands in quotes. -/
theorem quoted {symbols : List σ} (inside : marks.Inside symbols) :
    marks.Level (marks.quote :: (symbols ++ [marks.quote])) := by
  intro depth rest
  obtain ⟨noClose, noOpen, noEscape⟩ := marks.quote_ne
  have ends : marks.skip (depth + 1) .quoted (marks.quote :: rest) =
      (marks.skip (depth + 1) .outside rest).map fun read => (marks.quote :: read.1, read.2) := by
    rw [skip, if_neg noEscape, if_pos rfl]
  rw [List.cons_append, skip, if_neg fun closes => noClose closes.1, if_neg noClose, if_neg noOpen, if_pos rfl,
    List.append_assoc, inside, List.singleton_append, ends, Option.map_map, Option.map_map]
  refine congrArg (Option.map · _) (funext fun read => ?_)
  rw [Function.comp_apply, Function.comp_apply, List.cons_append, List.append_assoc, List.singleton_append]

/-- A value in parentheses within another. -/
theorem group {symbols : List σ} (level : marks.Level symbols) :
    marks.Level (marks.opened :: (symbols ++ [marks.closed])) := by
  intro depth rest
  have closes : marks.skip (depth + 1 + 1) .outside (marks.closed :: rest) =
      (marks.skip (depth + 1) .outside rest).map fun read => (marks.closed :: read.1, read.2) := by
    rw [skip, if_neg fun closes => absurd closes.2 (by omega), if_pos rfl, Nat.add_sub_cancel]
  rw [List.cons_append, skip, if_neg fun isClosed => marks.opened_ne isClosed.1, if_neg marks.opened_ne, if_pos rfl,
    List.append_assoc, level, List.singleton_append, closes, Option.map_map, Option.map_map]
  refine congrArg (Option.map · _) (funext fun read => ?_)
  rw [Function.comp_apply, Function.comp_apply, List.cons_append, List.append_assoc, List.singleton_append]

end Level

/-- A value is read as it stands, whatever follows it. -/
theorem reads_group {symbols : List σ} (level : marks.Level symbols) :
    Reader.Reads marks.readGroup (marks.opened :: (symbols ++ [marks.closed]))
      (marks.opened :: (symbols ++ [marks.closed])) := by
  intro rest
  have closes : marks.skip (0 + 1) .outside (marks.closed :: rest) = some ([marks.closed], rest) := by
    rw [skip, if_pos ⟨rfl, Nat.le_refl _⟩]
  rw [List.cons_append, readGroup, if_pos rfl, List.append_assoc, level 0, List.singleton_append, closes]
  rfl

end Marks

end TutaBridge.Std
