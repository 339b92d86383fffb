import Mathlib.Order.BooleanAlgebra.Set

/-!
# A catalogue with a search index

Records, files and an index over one type of keys. Some files have a text to be
found by. The index is to have an entry for each of those that has a record, and
no entry without a record. Each change comes with the condition under which it
keeps that.
-/

namespace TutaBridge.Std

/-- `texts` are the keys whose file, if they have one, has a text. -/
@[ext] structure Catalog (κ : Type) where
  records : Set κ
  files : Set κ
  texts : Set κ
  index : Set κ

namespace Catalog

variable {κ : Type}

structure Covered (catalog : Catalog κ) : Prop where
  covers : ∀ key ∈ catalog.records, key ∈ catalog.files → key ∈ catalog.texts → key ∈ catalog.index
  belongs : ∀ key ∈ catalog.index, key ∈ catalog.records

/-- Add records. -/
def place (keys : Set κ) (catalog : Catalog κ) : Catalog κ :=
  { catalog with records := catalog.records ∪ keys }

/-- Write a file, with or without a text. -/
def file (key : κ) (hasText : Bool) (catalog : Catalog κ) : Catalog κ :=
  { catalog with
    files := catalog.files ∪ {key}
    texts := { other | other = key ∧ hasText ∨ other ≠ key ∧ other ∈ catalog.texts } }

/-- Add index entries. -/
def enter (keys : Set κ) (catalog : Catalog κ) : Catalog κ :=
  { catalog with index := catalog.index ∪ keys }

/-- Write a file and index its text. -/
def fileIndexed (key : κ) (hasText : Bool) (catalog : Catalog κ) : Catalog κ :=
  (catalog.file key hasText).enter { other | other = key ∧ hasText }

/-- Drop records with their files and index entries. -/
def remove (keys : Set κ) (catalog : Catalog κ) : Catalog κ :=
  { catalog with
    records := catalog.records \ keys
    files := catalog.files \ keys
    index := catalog.index \ keys }

/-- Drop records with their files, and leave the index. -/
def drop (keys : Set κ) (catalog : Catalog κ) : Catalog κ :=
  { catalog with records := catalog.records \ keys, files := catalog.files \ keys }

/-- Drop every record and every index entry, and leave the files. -/
def clear (catalog : Catalog κ) : Catalog κ := { catalog with records := ∅, index := ∅ }

variable {catalog : Catalog κ}

/-- A placed record may find a file that nobody indexed. -/
theorem covered_place_remove_iff (covered : catalog.Covered) (placed removed : Set κ) :
    ((catalog.place placed).remove removed).Covered ↔
      ∀ key ∈ placed, key ∉ removed → key ∈ catalog.files → key ∈ catalog.texts → key ∈ catalog.index := by
  constructor
  · intro after key isPlaced kept hasFile hasText
    exact (after.covers key ⟨.inr isPlaced, kept⟩ ⟨hasFile, kept⟩ hasText).1
  · intro indexed
    refine ⟨?_, fun key entry => ⟨.inl (covered.belongs key entry.1), entry.2⟩⟩
    rintro key ⟨recorded | isPlaced, kept⟩ hasFile hasText
    · exact ⟨covered.covers key recorded hasFile.1 hasText, kept⟩
    · exact ⟨indexed key isPlaced kept hasFile.1 hasText, kept⟩

theorem covered_place_iff (covered : catalog.Covered) (placed : Set κ) : (catalog.place placed).Covered ↔
      ∀ key ∈ placed, key ∈ catalog.files → key ∈ catalog.texts → key ∈ catalog.index := by
  have kept := covered_place_remove_iff covered placed ∅
  simpa [remove] using kept

theorem covered_remove (covered : catalog.Covered) (removed : Set κ) : (catalog.remove removed).Covered :=
  ⟨fun key recorded hasFile hasText =>
      ⟨covered.covers key recorded.1 hasFile.1 hasText, recorded.2⟩,
    fun key entry => ⟨covered.belongs key entry.1, entry.2⟩⟩

/-- A file that is written and not indexed. -/
theorem covered_file_iff (covered : catalog.Covered) (key : κ) (hasText : Bool) : (catalog.file key hasText).Covered ↔
      (hasText → key ∈ catalog.records → key ∈ catalog.index) := by
  constructor
  · intro after isText recorded
    exact after.covers key recorded (.inr rfl) (.inl ⟨rfl, isText⟩)
  · intro indexed
    refine ⟨?_, covered.belongs⟩
    rintro other recorded hasFile (⟨rfl, isText⟩ | ⟨different, isText⟩)
    · exact indexed isText recorded
    · exact covered.covers other recorded (hasFile.resolve_right different) isText

/-- A file that is written, not indexed, and then given a record. -/
theorem covered_file_place_iff (covered : catalog.Covered) (key placed : κ) :
    ((catalog.file key true).place {placed}).Covered ↔ (key = placed ∨ key ∈ catalog.records → key ∈ catalog.index) ∧
        (placed ∈ catalog.files → placed ∈ catalog.texts → placed ∈ catalog.index) := by
  constructor
  · intro after
    refine ⟨?_, fun hasFile isText => ?_⟩
    · rintro (rfl | recorded)
      · exact after.covers key (.inr rfl) (.inr rfl) (.inl ⟨rfl, rfl⟩)
      · exact after.covers key (.inl recorded) (.inr rfl) (.inl ⟨rfl, rfl⟩)
    · by_cases same : placed = key
      · exact after.covers placed (.inr rfl) (.inl hasFile) (.inl ⟨same, rfl⟩)
      · exact after.covers placed (.inr rfl) (.inl hasFile) (.inr ⟨same, isText⟩)
  · rintro ⟨written, found⟩
    refine ⟨?_, fun other entry => .inl (covered.belongs other entry)⟩
    rintro other recorded hasFile (⟨rfl, -⟩ | ⟨different, isText⟩)
    · exact written (recorded.symm.imp_left fun isPlaced => isPlaced)
    · have hadFile := hasFile.resolve_right different
      rcases recorded with recorded | rfl
      · exact covered.covers other recorded hadFile isText
      · exact found hadFile isText

/-- A new file that is written and indexed. Nothing else that is missing is made
good by it. -/
theorem covered_fileIndexed_iff {key : κ} (isNew : key ∉ catalog.files) (hasText : Bool) :
    (catalog.fileIndexed key hasText).Covered ↔ catalog.Covered ∧ (hasText → key ∈ catalog.records) := by
  constructor
  · intro after
    refine ⟨⟨?_, fun other entry => after.belongs other (.inl entry)⟩,
      fun isText => after.belongs key (.inr ⟨rfl, isText⟩)⟩
    intro other recorded hasFile isText
    have different : other ≠ key := fun same => isNew (same ▸ hasFile)
    have entry := after.covers other recorded (.inl hasFile) (.inr ⟨different, isText⟩)
    exact entry.resolve_right fun written => different written.1
  · rintro ⟨covered, recordedKey⟩
    constructor
    · rintro other recorded hasFile (⟨rfl, isText⟩ | ⟨different, isText⟩)
      · exact .inr ⟨rfl, isText⟩
      · exact .inl (covered.covers other recorded (hasFile.resolve_right different) isText)
    · rintro other (entry | ⟨rfl, isText⟩)
      · exact covered.belongs other entry
      · exact recordedKey isText

theorem covered_drop_iff (covered : catalog.Covered) (dropped : Set κ) :
    (catalog.drop dropped).Covered ↔ ∀ key ∈ dropped, key ∉ catalog.index := by
  constructor
  · intro after key isDropped entry
    exact (after.belongs key entry).2 isDropped
  · intro unindexed
    exact ⟨fun key recorded hasFile hasText => covered.covers key recorded.1 hasFile.1 hasText,
        fun key entry => ⟨covered.belongs key entry, fun isDropped => unindexed key isDropped entry⟩⟩

theorem covered_enter (covered : catalog.Covered) {keys : Set κ} (recorded : keys ⊆ catalog.records) :
    (catalog.enter keys).Covered :=
  ⟨fun key isRecorded hasFile hasText => .inl (covered.covers key isRecorded hasFile hasText),
    fun key entry => entry.elim (covered.belongs key) fun entered => recorded entered⟩

theorem covered_clear (catalog : Catalog κ) : catalog.clear.Covered := ⟨nofun, nofun⟩

end Catalog

end TutaBridge.Std
