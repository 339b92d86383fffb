import TutaBridge.Bridge.World
import TutaBridge.Std.Guarded

/-!
# The backfill of the search index

Once per install the syncer indexes the bodies that were on disk before the index
existed. It trusts `has_details` and the body files, and only adds to the index.
-/

namespace TutaBridge.Sync

open TutaBridge.Std Tuta Store Bridge

/-- `FTS_BACKFILL_MARKER`. -/
def ftsBackfillMarker : String := "body_fts_indexed_v1"

/-- Index the body of one row. The flag is `ok`. -/
def backfillRow (env : Env) (state : Bool × World) (row : MailMetadata) : Bool × World :=
  let read := state.2.call env fun store => (store.readEml row.elementId, store)
  match read.1 with
  | .error _ => (false, read.2)
  | .ok none => (state.1, read.2)
  | .ok (some rfc2822) =>
    let indexed := read.2.call env fun store =>
      ((), store.indexBody row.elementId (env.rendering.extractBodyText rfc2822))
    match indexed.1 with
    | .error _ => (false, indexed.2)
    | .ok _ => (state.1, indexed.2)

def backfillFolder (env : Env) (state : Bool × World) (folder : FolderInfo) : Bool × World :=
  let loaded := state.2.call env fun store => (store.loadFolderMetadata folder.id, store)
  match loaded.1 with
  | .error _ => (false, loaded.2)
  | .ok rows => (rows.filter MailMetadata.hasDetails).foldl (backfillRow env) (state.1, loaded.2)

/-- Whether the marker is set; one that cannot be read counts as absent. -/
def backfillDone (env : Env) (world : World) : Bool × World :=
  let marker := world.call env fun store => (store.getMeta ftsBackfillMarker, store)
  match marker.1 with
  | .ok value => (value.isSome, marker.2)
  | .error _ => (false, marker.2)

/-- The backfill of `run_syncer`. -/
def backfill (env : Env) (folders : List FolderInfo) (world : World) : World :=
  let marked := backfillDone env world
  if marked.1 || folders.isEmpty then marked.2
  else
    let done := folders.foldl (backfillFolder env) (true, marked.2)
    if done.1 then done.2.write env (·.setMeta ftsBackfillMarker "1") else done.2

/-! ## What it changes -/

/-- Rows and files stay, and what is new in the index has a row. -/
structure OnlyIndexes (before after : LocalStore) : Prop where
  rows : after.mails = before.mails
  files : after.emls = before.emls
  kept : ∀ id, before.indexed id → after.indexed id
  added : ∀ id, after.indexed id → before.indexed id ∨ before.hasRow id

namespace OnlyIndexes

variable {env : Env}

theorem refl (store : LocalStore) : OnlyIndexes store store :=
  ⟨rfl, rfl, fun _ => id, fun _ => .inl⟩

theorem trans {first second third : LocalStore} (early : OnlyIndexes first second)
    (late : OnlyIndexes second third) : OnlyIndexes first third where
  rows := late.rows.trans early.rows
  files := late.files.trans early.files
  kept := fun id entry => late.kept id (early.kept id entry)
  added := fun id entry => by
    rcases late.added id entry with earlier | hasRow
    · exact early.added id earlier
    · refine .inr ?_
      rw [LocalStore.hasRow, early.rows] at hasRow
      exact hasRow

/-- A disk call does when its effect does, also when it fails. -/
theorem call {α : Type} {effect : LocalStore → α × LocalStore} {world : World}
    (only : OnlyIndexes world.localStore (effect world.localStore).2) :
    OnlyIndexes world.localStore (world.call env effect).2.localStore := by
  unfold World.call
  split
  · exact .refl _
  · exact only

theorem indexBody {elementId : String} {store : LocalStore} (hasRow : store.hasRow elementId)
    (text : String) : OnlyIndexes store (store.indexBody elementId text) where
  rows := rfl
  files := rfl
  kept := fun id entry => by simp [entry]
  added := fun id entry => by
    rcases (LocalStore.indexed_indexBody elementId id text store).mp entry with rfl | earlier
    · exact .inr hasRow
    · exact .inl earlier

end OnlyIndexes

variable {env : Env}

theorem backfillRow_onlyIndexes {row : MailMetadata} {state : Bool × World}
    (hasRow : state.2.localStore.hasRow row.elementId) :
    OnlyIndexes state.2.localStore (backfillRow env state row).2.localStore := by
  have read : OnlyIndexes state.2.localStore (state.2.call env fun store =>
      (store.readEml row.elementId, store)).2.localStore := .call (.refl _)
  unfold backfillRow
  dsimp only
  split
  · exact read
  · exact read
  · have stillHasRow : (state.2.call env fun store =>
        (store.readEml row.elementId, store)).2.localStore.hasRow row.elementId := by
      rw [LocalStore.hasRow, read.rows]
      exact hasRow
    refine read.trans ?_
    split <;> exact .call (.indexBody stillHasRow _)

theorem backfillFolder_onlyIndexes (folder : FolderInfo) (state : Bool × World) :
    OnlyIndexes state.2.localStore (backfillFolder env state folder).2.localStore := by
  have loop : ∀ (rows : List MailMetadata) (state : Bool × World),
      (∀ row ∈ rows, state.2.localStore.hasRow row.elementId) →
      OnlyIndexes state.2.localStore (rows.foldl (backfillRow env) state).2.localStore := by
    intro rows
    induction rows with
    | nil => exact fun state _ => .refl _
    | cons head rest ih =>
      intro state present
      have first := @backfillRow_onlyIndexes env head state (present head List.mem_cons_self)
      refine first.trans (ih _ fun row mem => ?_)
      rw [LocalStore.hasRow, first.rows]
      exact present row (List.mem_cons_of_mem _ mem)
  have loaded : OnlyIndexes state.2.localStore (state.2.call env fun store =>
      (store.loadFolderMetadata folder.id, store)).2.localStore := .call (.refl _)
  unfold backfillFolder
  dsimp only
  split
  · exact loaded
  next rows answered =>
    refine loaded.trans (loop (rows.filter MailMetadata.hasDetails) (state.1, _)
      fun row mem => ?_)
    have inTable : row ∈ state.2.localStore.mails.rows := by
      unfold World.call at answered
      split at answered
      · cases answered
      · cases answered
        have inFolder := (List.mem_filter.mp mem).1
        simp only [LocalStore.loadFolderMetadata, List.mem_insertionSort] at inFolder
        exact (List.mem_filter.mp inFolder).1
    rw [LocalStore.hasRow, loaded.rows, Table.find?_of_mem inTable]
    rfl

theorem backfill_onlyIndexes (folders : List FolderInfo) (world : World) :
    OnlyIndexes world.localStore (backfill env folders world).localStore := by
  have loop : ∀ (folders : List FolderInfo) (state : Bool × World),
      OnlyIndexes state.2.localStore (folders.foldl (backfillFolder env) state).2.localStore := by
    intro folders
    induction folders with
    | nil => exact fun state => .refl _
    | cons head rest ih =>
      exact fun state => (backfillFolder_onlyIndexes head state).trans (ih _)
  have read : OnlyIndexes world.localStore (backfillDone env world).2.localStore := by
    unfold backfillDone
    dsimp only
    split <;> exact .call (.refl _)
  have indexed := read.trans (loop folders (true, (backfillDone env world).2))
  unfold backfill
  dsimp only
  split
  · exact read
  · split
    · exact indexed.trans (.call ⟨rfl, rfl, fun _ => id, fun _ => .inl⟩)
    · exact indexed

/-! ## What it leaves alone -/

theorem backfillRow_store (state : Bool × World) (row : MailMetadata) :
    (backfillRow env state row).2.store = state.2.store := by
  unfold backfillRow
  dsimp only
  split
  · exact World.call_store _ _
  · exact World.call_store _ _
  · split <;> exact (World.call_store _ _).trans (World.call_store _ _)

theorem backfillFolder_store (state : Bool × World) (folder : FolderInfo) :
    (backfillFolder env state folder).2.store = state.2.store := by
  unfold backfillFolder
  dsimp only
  split
  · exact World.call_store _ _
  · rw [foldl_keeps (fun state : Bool × World => state.2.store) backfillRow_store]
    exact World.call_store _ _

/-- The backfill does not touch memory. -/
theorem backfill_store (folders : List FolderInfo) (world : World) :
    (backfill env folders world).store = world.store := by
  have read : (backfillDone env world).2.store = world.store := by
    unfold backfillDone
    dsimp only
    split <;> exact World.call_store _ _
  have loop : (folders.foldl (backfillFolder env) (true, (backfillDone env world).2)).2.store = world.store :=
    (foldl_keeps (fun state : Bool × World => state.2.store) backfillFolder_store _ _).trans read
  unfold backfill
  dsimp only
  split
  · exact read
  · split
    · exact (World.write_store _ _).trans loop
    · exact loop

end TutaBridge.Sync
