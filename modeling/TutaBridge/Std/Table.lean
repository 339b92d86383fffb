import Mathlib.Algebra.GroupWithZero.Nat
import Mathlib.Data.List.Nodup

/-!
# Tables with a unique key

A `Table` is a list of rows whose keys are distinct. It stands for an SQL table
with a primary key, and, at rows that are pairs, for a hash map. Rows keep their
insertion order, but every result below is stated through `find?`, so nothing
depends on that order.
-/

namespace TutaBridge.Std

/-- Rows in insertion order, no two of them with the same key. -/
structure Table (κ ρ : Type) (key : ρ → κ) where
  rows : List ρ
  distinct : (rows.map key).Nodup

namespace Table

variable {κ ρ : Type} {key : ρ → κ}

@[ext] theorem ext {left right : Table κ ρ key} (rows : left.rows = right.rows) : left = right := by
  cases left
  cases right
  cases rows
  rfl

instance [DecidableEq ρ] : DecidableEq (Table κ ρ key) := fun left right =>
  decidable_of_iff (left.rows = right.rows) ⟨ext, fun equal => congrArg Table.rows equal⟩

/-- The table without rows. -/
def empty : Table κ ρ key := ⟨[], List.nodup_nil⟩

/-- `WHERE key = k`, which selects at most one row. -/
def find? [DecidableEq κ] (table : Table κ ρ key) (k : κ) : Option ρ :=
  table.rows.find? fun row => key row = k

/-- Rewrite every row without touching its key. -/
def update (table : Table κ ρ key) (change : ρ → ρ) (keeps : ∀ row, key (change row) = key row) :
    Table κ ρ key :=
  ⟨table.rows.map change, by
    have same : (table.rows.map change).map key = table.rows.map key := by
      simp [List.map_map, Function.comp_def, keeps]
    rw [same]
    exact table.distinct⟩

/-- Drop the rows a predicate selects. -/
def delete (table : Table κ ρ key) (selects : ρ → Bool) : Table κ ρ key :=
  ⟨table.rows.filter fun row => !selects row, table.distinct.sublist (List.filter_sublist.map key)⟩

/-- `INSERT … ON CONFLICT(key) DO UPDATE`: the row in the way is rewritten in
place, otherwise the new row is appended. -/
def upsert [DecidableEq κ] (table : Table κ ρ key) (row : ρ) (merge : ρ → ρ)
    (keeps : ∀ old, key old = key row → key (merge old) = key row) : Table κ ρ key :=
  if present : key row ∈ table.rows.map key then
    table.update (fun old => if key old = key row then merge old else old) (by
      intro old
      by_cases same : key old = key row
      · simp [same, keeps old same]
      · simp [same])
  else
    ⟨table.rows ++ [row], by
      rw [List.map_append, List.map_singleton]
      exact table.distinct.append (List.nodup_singleton _) (by simpa using present)⟩

/-- `INSERT OR REPLACE`, or the insertion into a hash map. -/
def insert [DecidableEq κ] (table : Table κ ρ key) (row : ρ) : Table κ ρ key :=
  table.upsert row (fun _ => row) fun _ _ => rfl

section

variable [DecidableEq κ]

@[simp] theorem find?_empty (k : κ) : (empty : Table κ ρ key).find? k = none := rfl

/-- `find?` returns exactly the row with the key. -/
theorem find?_eq_some_iff {table : Table κ ρ key} {k : κ} {row : ρ} :
    table.find? k = some row ↔ row ∈ table.rows ∧ key row = k := by
  constructor
  · intro found
    exact ⟨List.mem_of_find?_eq_some found, by simpa using List.find?_some found⟩
  · rintro ⟨mem, rfl⟩
    cases found : table.find? (key row) with
    | none =>
      have absent := List.find?_eq_none.mp found row mem
      simp at absent
    | some other =>
      have otherMember : other ∈ table.rows := List.mem_of_find?_eq_some found
      have otherKey : key other = key row := by simpa using List.find?_some found
      rw [List.inj_on_of_nodup_map table.distinct otherMember mem otherKey]

theorem find?_eq_none_iff {table : Table κ ρ key} {k : κ} :
    table.find? k = none ↔ ∀ row ∈ table.rows, key row ≠ k := by
  simp [find?, List.find?_eq_none]

theorem find?_of_mem {table : Table κ ρ key} {row : ρ} (mem : row ∈ table.rows) : table.find? (key row) = some row :=
  find?_eq_some_iff.mpr ⟨mem, rfl⟩

theorem mem_of_find? {table : Table κ ρ key} {k : κ} {row : ρ} (found : table.find? k = some row) :
    row ∈ table.rows :=
  (find?_eq_some_iff.mp found).1

theorem key_of_find? {table : Table κ ρ key} {k : κ} {row : ρ} (found : table.find? k = some row) : key row = k :=
  (find?_eq_some_iff.mp found).2

@[simp] theorem find?_update (table : Table κ ρ key) (change : ρ → ρ)
    (keeps : ∀ row, key (change row) = key row) (k : κ) :
    (table.update change keeps).find? k = (table.find? k).map change := by
  have same : (fun row => decide (key row = k)) ∘ change = fun row => decide (key row = k) :=
    funext fun row => by rw [Function.comp_apply, keeps]
  simp only [find?, update, List.find?_map, same]

@[simp] theorem find?_delete (table : Table κ ρ key) (selects : ρ → Bool) (k : κ) :
    (table.delete selects).find? k = (table.find? k).filter fun row => !selects row := by
  cases found : table.find? k with
  | none =>
    rw [Option.filter_none, find?_eq_none_iff]
    intro row mem
    exact find?_eq_none_iff.mp found row (List.mem_of_mem_filter mem)
  | some row =>
    obtain ⟨mem, rowKey⟩ := find?_eq_some_iff.mp found
    cases dropped : selects row with
    | true =>
      simp only [Option.filter_some, dropped, Bool.not_true, Bool.false_eq_true, if_false]
      rw [find?_eq_none_iff]
      intro other otherMember otherKey
      obtain ⟨inTable, kept⟩ := List.mem_filter.mp otherMember
      have same : other = row :=
        List.inj_on_of_nodup_map table.distinct inTable mem (otherKey.trans rowKey.symm)
      subst same
      simp [dropped] at kept
    | false =>
      simp only [Option.filter_some, dropped, Bool.not_false, if_true]
      exact find?_eq_some_iff.mpr ⟨List.mem_filter.mpr ⟨mem, by simp [dropped]⟩, rowKey⟩

/-- An upsert changes the row of one key and no other. -/
theorem find?_upsert (table : Table κ ρ key) (row : ρ) (merge : ρ → ρ)
    (keeps : ∀ old, key old = key row → key (merge old) = key row) (k : κ) :
    (table.upsert row merge keeps).find? k =
      if k = key row then some ((table.find? k).elim row merge) else table.find? k := by
  unfold upsert
  split
  next present =>
    rw [find?_update]
    obtain ⟨old, mem, oldKey⟩ := List.mem_map.mp present
    by_cases same : k = key row
    · subst same
      have found : table.find? (key row) = some old := find?_eq_some_iff.mpr ⟨mem, oldKey⟩
      simp [found, oldKey]
    · cases found : table.find? k with
      | none => simp [same]
      | some other =>
        have otherKey : key other = k := key_of_find? found
        simp [same, otherKey]
  next absent =>
    have missing : table.find? (key row) = none := by
      rw [find?_eq_none_iff]
      intro other mem otherKey
      exact absent (List.mem_map.mpr ⟨other, mem, otherKey⟩)
    have appended : ∀ k, (find? (⟨table.rows ++ [row], by
        rw [List.map_append, List.map_singleton]
        exact table.distinct.append (List.nodup_singleton _) (by simpa using absent)⟩ :
          Table κ ρ key) k) = (table.find? k).or (if key row = k then some row else none) := by
      intro k
      simp [find?, List.find?_append, List.find?_singleton]
    rw [appended]
    by_cases same : k = key row
    · subst same
      simp [missing]
    · have flipped : ¬ key row = k := fun equal => same equal.symm
      simp [same, flipped]

@[simp] theorem find?_insert (table : Table κ ρ key) (row : ρ) (k : κ) :
    (table.insert row).find? k = if k = key row then some row else table.find? k := by
  rw [insert, find?_upsert]
  cases table.find? k <;> simp

end

end Table

/-- A hash map: a table of pairs keyed by their first component. -/
abbrev Dict (κ ν : Type) := Table κ (κ × ν) Prod.fst

namespace Dict

variable {κ ν : Type}

/-- The keys that are present, in insertion order. -/
def keys (dict : Dict κ ν) : List κ := dict.rows.map Prod.fst

/-- Rewrite every value. -/
def mapValues (dict : Dict κ ν) (change : ν → ν) : Dict κ ν :=
  dict.update (fun row => (row.1, change row.2)) fun _ => rfl

variable [DecidableEq κ]

/-- The value stored at a key. -/
def get? (dict : Dict κ ν) (k : κ) : Option ν := (dict.find? k).map Prod.snd

/-- Store a value, replacing the one that was there. -/
def set (dict : Dict κ ν) (k : κ) (value : ν) : Dict κ ν := dict.insert (k, value)

/-- Forget a key. -/
def erase (dict : Dict κ ν) (k : κ) : Dict κ ν := dict.delete fun row => decide (row.1 = k)

theorem find?_eq_get? (dict : Dict κ ν) (k : κ) : dict.find? k = (dict.get? k).map fun value => (k, value) := by
  cases found : dict.find? k with
  | none => simp [get?, found]
  | some row =>
    obtain ⟨rowKey, value⟩ := row
    have same : rowKey = k := Table.key_of_find? found
    simp [get?, found, same]

@[simp] theorem get?_empty (k : κ) : get? (Table.empty : Dict κ ν) k = none := rfl

@[simp] theorem get?_set (dict : Dict κ ν) (k other : κ) (value : ν) :
    get? (set dict k value) other = if other = k then some value else dict.get? other := by
  by_cases same : other = k <;> simp [get?, set, same]

/-- Deleting rows by their key. -/
theorem get?_delete (dict : Dict κ ν) (gone : κ → Bool) (k : κ) :
    get? (dict.delete fun row => gone row.1) k = if gone k then none else dict.get? k := by
  cases found : dict.find? k with
  | none => simp [get?, found]
  | some row =>
    have rowKey : row.1 = k := Table.key_of_find? found
    by_cases isGone : gone k <;> simp [get?, found, rowKey, isGone, Option.filter]

@[simp] theorem get?_erase (dict : Dict κ ν) (k other : κ) :
    get? (erase dict k) other = if other = k then none else dict.get? other := by
  rw [erase, get?_delete dict fun key => decide (key = k)]
  simp

@[simp] theorem get?_mapValues (dict : Dict κ ν) (change : ν → ν) (k : κ) :
    get? (mapValues dict change) k = (dict.get? k).map change := by
  simp [get?, mapValues, Option.map_map, Function.comp_def]

theorem mem_keys_iff {dict : Dict κ ν} {k : κ} : k ∈ dict.keys ↔ (dict.get? k).isSome := by
  constructor
  · intro mem
    obtain ⟨row, inRows, rfl⟩ := List.mem_map.mp mem
    simp [get?, Table.find?_of_mem inRows]
  · intro present
    obtain ⟨value, found⟩ := Option.isSome_iff_exists.mp present
    have row : dict.find? k = some (k, value) := by simp [find?_eq_get?, found]
    exact List.mem_map.mpr ⟨_, Table.mem_of_find? row, rfl⟩

/-! ## Rows -/

theorem mem_rows_iff {dict : Dict κ ν} {k : κ} {value : ν} : (k, value) ∈ dict.rows ↔ dict.get? k = some value := by
  rw [get?, Option.map_eq_some_iff]
  constructor
  · intro mem
    exact ⟨(k, value), Table.find?_of_mem mem, rfl⟩
  · rintro ⟨row, found, rfl⟩
    have rowKey : row.1 = k := Table.key_of_find? found
    subst rowKey
    exact Table.mem_of_find? found

omit [DecidableEq κ] in
theorem nodup_rows (dict : Dict κ ν) : dict.rows.Nodup := dict.distinct.of_map

/-- A dictionary is, up to the order of its rows, the row of a key and the others. -/
theorem rows_perm_cons_erase {dict : Dict κ ν} {k : κ} {value : ν}
    (found : dict.get? k = some value) : dict.rows.Perm ((k, value) :: (dict.erase k).rows) := by
  have absent : (k, value) ∉ (dict.erase k).rows := by
    rw [mem_rows_iff, get?_erase, if_pos rfl]
    exact (Option.some_ne_none value).symm
  rw [List.perm_ext_iff_of_nodup (nodup_rows dict) (List.nodup_cons.mpr ⟨absent, nodup_rows _⟩)]
  rintro ⟨other, stored⟩
  rw [List.mem_cons, mem_rows_iff, mem_rows_iff, get?_erase]
  by_cases same : other = k
  · subst same
    simp [found, eq_comm]
  · simp [same]

theorem rows_set_perm (dict : Dict κ ν) (k : κ) (value : ν) :
    (dict.set k value).rows.Perm ((k, value) :: (dict.erase k).rows) := by
  have shape := @rows_perm_cons_erase κ ν _ (dict.set k value) k value (by simp)
  refine shape.trans (.cons _ ?_)
  rw [List.perm_ext_iff_of_nodup (nodup_rows _) (nodup_rows _)]
  rintro ⟨other, stored⟩
  rw [mem_rows_iff, mem_rows_iff, get?_erase, get?_erase, get?_set]
  by_cases same : other = k <;> simp [same]

theorem rows_erase_of_absent {dict : Dict κ ν} {k : κ} (absent : dict.get? k = none) :
    (dict.erase k).rows = dict.rows := by
  refine List.filter_eq_self.mpr fun row mem => ?_
  have present : dict.get? row.1 = some row.2 := mem_rows_iff.mp mem
  have different : row.1 ≠ k := by
    rintro rfl
    rw [absent] at present
    exact Option.some_ne_none _ present.symm
  simp [different]

/-- A key that was not present comes last. -/
theorem rows_set_of_absent {dict : Dict κ ν} {k : κ} (absent : dict.get? k = none) (value : ν) :
    (dict.set k value).rows = dict.rows ++ [(k, value)] := by
  have missing : k ∉ dict.rows.map Prod.fst := by
    intro mem
    obtain ⟨row, inRows, rfl⟩ := List.mem_map.mp mem
    rw [mem_rows_iff.mp inRows] at absent
    exact Option.some_ne_none _ absent
  rw [set, Table.insert, Table.upsert, dif_neg missing]

/-! ## Weights -/

section Weight

variable (weigh : ν → Nat)

/-- The sum of what the values weigh. -/
def weight (dict : Dict κ ν) : Nat := (dict.rows.map fun row => weigh row.2).sum

theorem weight_erase {dict : Dict κ ν} {k : κ} {value : ν} (found : dict.get? k = some value) :
    weight weigh dict = weigh value + weight weigh (dict.erase k) := by
  have shape := (rows_perm_cons_erase found).map fun row => weigh row.2
  exact shape.sum_nat

theorem weight_set (dict : Dict κ ν) (k : κ) (value : ν) :
    weight weigh (dict.set k value) = weigh value + weight weigh (dict.erase k) := by
  have shape := (rows_set_perm dict k value).map fun row => weigh row.2
  exact shape.sum_nat

theorem weight_erase_of_absent {dict : Dict κ ν} {k : κ} (absent : dict.get? k = none) :
    weight weigh (dict.erase k) = weight weigh dict := by
  rw [weight, rows_erase_of_absent absent, weight]

end Weight

/-! ## Grouping -/

section Grouping

variable {α : Type} (key : α → κ) (value : α → ν)

/-- `entry(k).or_default().push(value)`. -/
def push (dict : Dict κ (List ν)) (k : κ) (value : ν) : Dict κ (List ν) :=
  dict.set k ((dict.get? k).getD [] ++ [value])

/-- Push the value of every item under its key. -/
def groupInto (dict : Dict κ (List ν)) (items : List α) : Dict κ (List ν) :=
  items.foldl (fun dict item => dict.push (key item) (value item)) dict

/-- A group has the values of its key's items, in their order. -/
theorem get?_groupInto (dict : Dict κ (List ν)) (items : List α) (k : κ) :
    ((groupInto key value dict items).get? k).getD [] =
      (dict.get? k).getD [] ++ (items.filter fun item => key item = k).map value := by
  induction items generalizing dict with
  | nil => simp [groupInto]
  | cons head rest ih =>
    have later := ih (dict.push (key head) (value head))
    rw [groupInto] at later ⊢
    rw [List.foldl_cons, later, push, get?_set, List.filter_cons]
    by_cases same : key head = k
    · simp [same]
    · simp [same, Ne.symm same]

theorem mem_keys_groupInto {dict : Dict κ (List ν)} {items : List α} {k : κ} :
    k ∈ (groupInto key value dict items).keys ↔ k ∈ dict.keys ∨ ∃ item ∈ items, key item = k := by
  induction items generalizing dict with
  | nil => simp [groupInto]
  | cons head rest ih =>
    have pushed : k ∈ (dict.push (key head) (value head)).keys ↔ key head = k ∨ k ∈ dict.keys := by
      rw [mem_keys_iff, mem_keys_iff, push, get?_set]
      by_cases same : k = key head
      · simp [same]
      · simp [same, Ne.symm same]
    have later := @ih (dict.push (key head) (value head))
    rw [groupInto] at later ⊢
    rw [List.foldl_cons, later, pushed, List.exists_mem_cons_iff, or_assoc, or_left_comm]

end Grouping

end Dict

end TutaBridge.Std
