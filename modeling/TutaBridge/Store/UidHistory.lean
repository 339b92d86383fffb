import TutaBridge.Std.Guarded
import TutaBridge.Store.LocalStore

/-!
# The UIDs of one on-disk store

A history is any sequence of calls on one store, over restarts and over builds
with another schema version. `SELECT` announces `UIDVALIDITY 1` throughout, so
within a folder a UID must never be handed out twice. It is not, as long as no
call drops a counter that was used and no counter leaves 32 bits.
-/

namespace TutaBridge.Store

open TutaBridge.Std

/-- The calls that change the store. -/
inductive DiskOp where
  | «open» (version : String)
  | reset
  | setMeta (key value : String)
  | upsertMailMetadata (metadata : MailMetadata)
  | upsertMailMetadataBatch (metas : List MailMetadata)
  | allocateFolderUids (folderId : String) (newElementIds : List String)
  | deleteMailsNotIn (folderId : String) (elementIds : List String)
  | markHasDetails (elementId : String)
  | writeEml (elementId rfc2822 : String)
  | deleteEml (elementId : String)
  | indexBody (elementId bodyText : String)
  | unindexBody (elementId : String)
  | clearEventBusState
  | setEventBusBatchId (groupId batchId : String) (nowMs : Nat)
  | refreshMailFields (elementId subject senderName senderAddress : String) (unread : Bool)
      (mailJson : String)
  | deleteFolderMails (folderId : String)
  | deleteMail (elementId : String)
deriving DecidableEq

/-- A store with the schema version of the build that has it open. -/
structure OpenedStore where
  version : String
  disk : LocalStore
deriving DecidableEq

/-- Before the first `open`: no file on disk, and no build. -/
def OpenedStore.blank : OpenedStore := ⟨"", .blank⟩

/-- No UID was taken from a counter that is on disk. -/
def LocalStore.Unused (store : LocalStore) : Prop := ∀ row ∈ store.syncState.rows, row.nextUid ≤ 1

instance (store : LocalStore) : Decidable store.Unused := inferInstanceAs (Decidable (∀ _ ∈ _, _))

namespace DiskOp

/-- The disk after a call of a build with the given schema version. -/
def applyDisk (version : String) (store : LocalStore) : DiskOp → LocalStore
  | .open version => store.open version
  | .reset => store.reset version
  | .setMeta key value => store.setMeta key value
  | .upsertMailMetadata metadata => store.upsertMailMetadata metadata
  | .upsertMailMetadataBatch metas => store.upsertMailMetadataBatch metas
  | .allocateFolderUids folderId ids => (store.allocateFolderUids folderId ids).2
  | .deleteMailsNotIn folderId ids => (store.deleteMailsNotIn folderId ids).2
  | .markHasDetails elementId => store.markHasDetails elementId
  | .writeEml elementId rfc2822 => store.writeEml elementId rfc2822
  | .deleteEml elementId => store.deleteEml elementId
  | .indexBody elementId bodyText => store.indexBody elementId bodyText
  | .unindexBody elementId => store.unindexBody elementId
  | .clearEventBusState => store.clearEventBusState
  | .setEventBusBatchId groupId batchId nowMs => store.setEventBusBatchId groupId batchId nowMs
  | .refreshMailFields elementId subject senderName senderAddress unread mailJson =>
    store.refreshMailFields elementId subject senderName senderAddress unread mailJson
  | .deleteFolderMails folderId => (store.deleteFolderMails folderId).2
  | .deleteMail elementId =>
    ((store.deleteMailRow elementId).deleteEml elementId).unindexBody elementId

/-- The build that has the store open after a call. -/
def build (version : String) : DiskOp → String
  | .open version => version
  | _ => version

def apply (store : OpenedStore) (op : DiskOp) : OpenedStore :=
  ⟨op.build store.version, op.applyDisk store.version store.disk⟩

/-- The UIDs a call hands out, each with its folder. -/
def handedOut (store : LocalStore) : DiskOp → List (String × Nat)
  | .allocateFolderUids folderId ids =>
    (store.allocateFolderUids folderId ids).1.rows.map fun row => (folderId, row.2)
  | _ => []

/-- The call drops no counter that was used and takes none out of 32 bits: a migration or a
reset finds unused counters, and an allocation fits. -/
def KeepsCounters (store : LocalStore) : DiskOp → Prop
  | .open version => store.storeMeta.get? "schema_version" = some version ∨ store.Unused
  | .reset => store.Unused
  | .allocateFolderUids folderId ids => store.nextUid folderId + ids.length ≤ 2 ^ 32
  | _ => True

instance (store : LocalStore) : (op : DiskOp) → Decidable (op.KeepsCounters store)
  | .open _ => inferInstanceAs (Decidable (_ ∨ _))
  | .reset => inferInstanceAs (Decidable (LocalStore.Unused _))
  | .allocateFolderUids _ _ => inferInstanceAs (Decidable (_ ≤ _))
  | .setMeta _ _ | .upsertMailMetadata _ | .upsertMailMetadataBatch _ | .deleteMailsNotIn _ _
  | .markHasDetails _ | .writeEml _ _ | .deleteEml _ | .indexBody _ _ | .unindexBody _
  | .clearEventBusState | .setEventBusBatchId _ _ _ | .refreshMailFields _ _ _ _ _ _
  | .deleteFolderMails _ | .deleteMail _ => inferInstanceAs (Decidable True)

end DiskOp

/-- All UIDs handed out over a history, in order. -/
def uidHistory (store : OpenedStore) : List DiskOp → List (String × Nat)
  | [] => []
  | op :: rest => op.handedOut store.disk ++ uidHistory (op.apply store) rest

namespace LocalStore

theorem nextUid_of_unused {store : LocalStore} (unused : store.Unused) (folderId : String) :
    store.nextUid folderId ≤ 1 := by
  rw [nextUid]
  cases found : store.syncState.find? folderId with
  | none => exact le_refl 1
  | some row => exact unused row (Table.mem_of_find? found)

theorem one_le_nextUid_empty (folderId : String) (store : LocalStore) (isEmpty : store.syncState = .empty) :
    store.nextUid folderId = 1 := by
  rw [nextUid, isEmpty, Table.find?_empty]
  rfl

/-- An allocation that fits hands out values between the counter before and the
counter after, no value twice. -/
theorem allocateFolderUids_range {store : LocalStore} {folderId : String} {ids : List String}
    (fits : store.nextUid folderId + ids.length ≤ 2 ^ 32) : (∀ row ∈ (store.allocateFolderUids folderId ids).1.rows,
      store.nextUid folderId ≤ row.2 ∧ row.2 < store.nextUid folderId + ids.length) ∧
      ((store.allocateFolderUids folderId ids).1.rows.map Prod.snd).Nodup := by
  have position : ∀ row ∈ (store.allocateFolderUids folderId ids).1.rows,
      ∃ index, ids[index]? = some row.1 ∧ index < ids.length ∧ row.2 = store.nextUid folderId + index := by
    intro row mem
    have found : (assignUids .empty (store.nextUid folderId) ids).get? row.1 = some row.2 := by
      have atKey : (assignUids .empty (store.nextUid folderId) ids).find? row.1 = some row :=
        Table.find?_of_mem mem
      rw [Dict.get?, atKey, Option.map_some]
    rcases get?_assignUids found with ⟨_, earlier⟩ | ⟨index, atIndex, uid⟩
    · simp at earlier
    · obtain ⟨inRange, _⟩ := List.getElem?_eq_some_iff.mp atIndex
      exact ⟨index, atIndex, inRange, by rw [uid, Nat.mod_eq_of_lt (by omega)]⟩
  constructor
  · intro row mem
    obtain ⟨index, _, inRange, uid⟩ := position row mem
    omega
  · refine (List.Nodup.of_map _ (store.allocateFolderUids folderId ids).1.distinct).map_on ?_
    intro left leftMember right rightMember sameUid
    obtain ⟨leftIndex, atLeft, _, leftUid⟩ := position left leftMember
    obtain ⟨rightIndex, atRight, _, rightUid⟩ := position right rightMember
    have sameIndex : leftIndex = rightIndex := by omega
    subst sameIndex
    have sameId : left.1 = right.1 := Option.some.inj (atLeft.symm.trans atRight)
    exact Prod.ext sameId sameUid

end LocalStore

open LocalStore in
/-- A call that keeps the counters never lowers one. -/
theorem nextUid_apply_le {store : OpenedStore} {op : DiskOp} (keeps : op.KeepsCounters store.disk)
    (folderId : String) : store.disk.nextUid folderId ≤ (op.apply store).disk.nextUid folderId := by
  cases op with
  | «open» version =>
    by_cases same : store.disk.storeMeta.get? "schema_version" = some version
    · have kept : (store.disk.open version).syncState = store.disk.syncState := by
        simp [LocalStore.open, same]
      simp only [DiskOp.apply, DiskOp.applyDisk, nextUid, kept, le_refl]
    · have dropped : (store.disk.open version).syncState = .empty := by
        simp [LocalStore.open, same]
      exact (nextUid_of_unused (keeps.resolve_left same) folderId).trans
        (one_le_nextUid_empty folderId _ dropped).ge
  | reset => exact (nextUid_of_unused keeps folderId).trans (one_le_nextUid_empty folderId _ rfl).ge
  | allocateFolderUids target ids =>
    simp only [DiskOp.apply, DiskOp.applyDisk, nextUid_allocateFolderUids]
    split
    next same => rw [same]; omega
    next => exact le_refl _
  | _ => exact le_refl _

/-- What a call that keeps the counters hands out lies between the counter
before it and the counter after it, and is handed out once. -/
theorem handedOut_range {store : OpenedStore} {op : DiskOp} (keeps : op.KeepsCounters store.disk) :
    (op.handedOut store.disk).Nodup ∧ ∀ pair ∈ op.handedOut store.disk,
      store.disk.nextUid pair.1 ≤ pair.2 ∧ pair.2 < (op.apply store).disk.nextUid pair.1 := by
  cases op with
  | allocateFolderUids folderId ids =>
    obtain ⟨range, distinct⟩ := LocalStore.allocateFolderUids_range keeps
    constructor
    · have pairs : DiskOp.handedOut store.disk (.allocateFolderUids folderId ids) =
          ((store.disk.allocateFolderUids folderId ids).1.rows.map Prod.snd).map
            fun uid => (folderId, uid) := by
        simp [DiskOp.handedOut]
      rw [pairs]
      exact distinct.map fun _ _ same => (Prod.mk.inj same).2
    · intro pair mem
      obtain ⟨row, rowMember, rfl⟩ := List.mem_map.mp mem
      have := range row rowMember
      simp only [DiskOp.apply, DiskOp.applyDisk, LocalStore.nextUid_allocateFolderUids, if_true]
      exact this
  | _ => exact ⟨List.nodup_nil, by simp [DiskOp.handedOut]⟩

/-- In a history whose calls keep the counters, all UIDs are new: above the
counters the history starts from, and pairwise different within a folder. -/
theorem uidHistory_fresh {store : OpenedStore} {run : List DiskOp}
    (guarded : Guarded DiskOp.apply (fun store op => op.KeepsCounters store.disk) store run) :
    (uidHistory store run).Nodup ∧ ∀ pair ∈ uidHistory store run, store.disk.nextUid pair.1 ≤ pair.2 := by
  induction run generalizing store with
  | nil => exact ⟨List.nodup_nil, by simp [uidHistory]⟩
  | cons op rest ih =>
    obtain ⟨keeps, later⟩ := guarded
    obtain ⟨restDistinct, restFresh⟩ := ih later
    obtain ⟨nowDistinct, nowRange⟩ := handedOut_range keeps
    constructor
    · refine nowDistinct.append restDistinct ?_
      rw [List.disjoint_left]
      intro pair now after
      have below := (nowRange pair now).2
      have above := restFresh pair after
      omega
    · intro pair mem
      rcases List.mem_append.mp mem with now | after
      · exact (nowRange pair now).1
      · exact (nextUid_apply_le keeps pair.1).trans (restFresh pair after)

/-- Over the whole life of a store whose calls keep the counters, no folder is
ever handed the same UID twice. -/
theorem uids_never_reused {run : List DiskOp}
    (guarded : Guarded DiskOp.apply (fun store op => op.KeepsCounters store.disk) .blank run) :
    (uidHistory .blank run).Nodup :=
  (uidHistory_fresh guarded).1

/-- Two runs of one build, with a new mail in each. -/
theorem uids_never_reused_restart :
    let run : List DiskOp := [.open "4", .allocateFolderUids "inbox" ["a"], .open "4",
      .allocateFolderUids "inbox" ["b", "c"]]
    uidHistory .blank run = [("inbox", 1), ("inbox", 2), ("inbox", 3)] ∧ (uidHistory .blank run).Nodup :=
  ⟨by decide, uids_never_reused ⟨by decide, by decide, by decide, by decide, trivial⟩⟩

/-- A reset writes the version of the build that runs it, so that the next build drops the counters. -/
example : ¬ (uidHistory .blank [.open "5", .reset, .allocateFolderUids "inbox" ["a"], .open "4",
    .allocateFolderUids "inbox" ["b"]]).Nodup := by decide

/-- A schema migration drops `sync_state`, and so does a reset: both start the
folder at UID 1 again. -/
theorem migration_and_reset_reuse_uids :
    ¬ (uidHistory .blank [.open "4", .allocateFolderUids "inbox" ["a"], .open "5",
        .allocateFolderUids "inbox" ["b"]]).Nodup ∧
      ¬ (uidHistory .blank [.open "4", .allocateFolderUids "inbox" ["a"], .reset,
        .allocateFolderUids "inbox" ["b"]]).Nodup :=
  ⟨by decide, by decide⟩

end TutaBridge.Store
