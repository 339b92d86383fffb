import TutaBridge.Tuta.Attachments

/-!
# Attachments load all or nothing

What `load_attachments` returns is told from what was answered: every attachment has the file that
was answered for it, decrypted with a key that was answered for it, and the data of its blobs. A
mail that names an attachment twice is refused before anything is asked, and nothing that the code
takes for granted is missing.
-/

namespace TutaBridge.Tuta.Attachments

open TutaBridge.Std

variable {ids : List IdTuple} {elements : List String} {id : IdTuple} {error : Halt}

section Specification

variable {π κ δ β : Type} (sdk : Sdk π κ δ) (mail : AttachedMail β) (asked : List (Exchange π κ δ β))

/-- A file that was answered for an attachment, to a request of its list. -/
def IsAnswered (id : IdTuple) (parsed : π) : Prop :=
  sdk.listElementId parsed = some id ∧ ∃ elements answer,
    .loadMultiple id.listId elements (.ok answer) ∈ asked ∧ id.elementId ∈ elements ∧ parsed ∈ answer

/-- The key of a file: the one it carries, or the one of the mail's bucket for just this file. -/
inductive HasKey (id : IdTuple) (parsed : π) (key : ResolvedSessionKey κ) : Prop where
  | own (carries : sdk.hasOwnerEncSessionKey parsed = true)
      (resolved : .resolveSessionKey parsed (.ok (some key)) ∈ asked)
  | bucket (carries : sdk.hasOwnerEncSessionKey parsed = false) (bucket : β) (group : String)
      (ids : List IdTuple) (keys : List (ResolvedSessionKey κ)) (isBucket : mail.bucketKey = some bucket)
      (isGroup : mail.ownerGroup = some group) (sameGroup : sdk.ownerGroup parsed = some group)
      (resolved : .resolveBucketInstanceKeys bucket group ids (.ok keys) ∈ asked) (distinct : ids.Nodup)
      (isKey : (id, key) ∈ ids.zip keys)

/-- A file decrypted with a key, with the envelope of the key. -/
def IsDecrypted (parsed : π) (key : ResolvedSessionKey κ) (file : File) : Prop :=
  ∃ decrypted mapped, .decryptParsed parsed key (.ok decrypted) ∈ asked ∧ mapFile sdk decrypted = .ok mapped ∧
    withEnvelope mapped key = .ok file

/-- The data of a blob as it was downloaded for a file. -/
def HasBlob (key : κ) (owner : IdTuple) (blob : FileBlob) (data : List UInt8) : Prop :=
  ∃ ids answer bytes, .downloadBlobs blob.archiveId owner ids (.ok answer) ∈ asked ∧
    (blob.blobId, bytes) ∈ answer ∧ sdk.decryptData key bytes = .ok data

/-- The data of a file: that of its blobs, in their order. -/
def HasData (key : κ) (file : File) (data : List UInt8) : Prop :=
  ∃ parts, data = parts.flatten ∧ (file.blobs = [] ∧ parts = [] ∨
    ∃ owner, file.id = some owner ∧ List.Forall₂ (HasBlob sdk asked key owner) file.blobs parts)

/-- What an attachment was loaded as. -/
def IsLoaded (id : IdTuple) (loaded : File × List UInt8) : Prop :=
  ∃ parsed key, IsAnswered sdk asked id parsed ∧ HasKey sdk mail asked id parsed key ∧
    IsDecrypted sdk asked parsed key loaded.1 ∧ HasData sdk asked key.sessionKey loaded.1 loaded.2

/-- One key for every id that is asked for. -/
def Server.KeyForEach (server : Server π κ δ β) : Prop :=
  ∀ asked bucket group ids keys,
    server.resolveBucketInstanceKeys asked bucket group ids = .ok keys → keys.length = ids.length

end Specification

/-! ## More exchanges -/

section More

variable {π κ δ β : Type} {sdk : Sdk π κ δ} {mail : AttachedMail β} {asked after : List (Exchange π κ δ β)}

theorem IsAnswered.mono (more : asked ⊆ after) {parsed : π}
    (isAnswered : IsAnswered sdk asked id parsed) : IsAnswered sdk after id parsed := by
  obtain ⟨isId, elements, answer, wasAsked, inElements, inAnswer⟩ := isAnswered
  exact ⟨isId, elements, answer, more wasAsked, inElements, inAnswer⟩

theorem HasKey.mono (more : asked ⊆ after) {parsed : π} {key : ResolvedSessionKey κ}
    (hasKey : HasKey sdk mail asked id parsed key) : HasKey sdk mail after id parsed key := by
  cases hasKey with
  | own carries resolved => exact .own carries (more resolved)
  | bucket carries bucket group ids keys isBucket isGroup sameGroup resolved distinct isKey =>
    exact .bucket carries bucket group ids keys isBucket isGroup sameGroup (more resolved) distinct isKey

theorem HasBlob.mono (more : asked ⊆ after) {key : κ} {owner : IdTuple} {blob : FileBlob} {data : List UInt8}
    (hasBlob : HasBlob sdk asked key owner blob data) : HasBlob sdk after key owner blob data := by
  obtain ⟨ids, answer, bytes, wasAsked, inAnswer, isData⟩ := hasBlob
  exact ⟨ids, answer, bytes, more wasAsked, inAnswer, isData⟩

theorem HasData.mono (more : asked ⊆ after) {key : κ} {file : File} {data : List UInt8}
    (hasData : HasData sdk asked key file data) : HasData sdk after key file data := by
  obtain ⟨parts, isData, noBlobs | ⟨owner, isOwner, blobs⟩⟩ := hasData
  · exact ⟨parts, isData, .inl noBlobs⟩
  · exact ⟨parts, isData, .inr ⟨owner, isOwner, blobs.imp fun _ _ => HasBlob.mono more⟩⟩

end More

/-! ## References -/

/-- An id that was put to the others of its list. -/
def Referenced (lists : List (String × List String)) (id : IdTuple) : Prop :=
  ∃ elements, (id.listId, elements) ∈ lists ∧ id.elementId ∈ elements

section References

variable {lists more : List (String × List String)} {id : IdTuple}

theorem idTuple_eq_iff {first second : IdTuple} :
    first = second ↔ first.listId = second.listId ∧ first.elementId = second.elementId := by
  cases first
  cases second
  rw [IdTuple.mk.injEq]

theorem not_referenced_nil : ¬Referenced [] id := by
  rintro ⟨elements, mem, -⟩
  cases mem

theorem referenced_cons_iff {list : String} : Referenced ((list, elements) :: lists) id ↔
      id.listId = list ∧ id.elementId ∈ elements ∨ Referenced lists id := by
  constructor
  · rintro ⟨others, mem, isElement⟩
    rcases List.mem_cons.mp mem with same | inRest
    · cases same
      exact .inl ⟨rfl, isElement⟩
    · exact .inr ⟨others, inRest, isElement⟩
  · rintro (⟨rfl, isElement⟩ | ⟨others, inRest, isElement⟩)
    · exact ⟨elements, List.mem_cons_self, isElement⟩
    · exact ⟨others, List.mem_cons_of_mem _ inRest, isElement⟩

theorem Referenced.mem_names (referenced : Referenced lists id) : id.listId ∈ lists.map Prod.fst := by
  obtain ⟨elements, mem, -⟩ := referenced
  exact List.mem_map_of_mem mem

/-- An id that is added was not there before, and is the only one that came. -/
theorem addReference_eq_ok (distinct : (lists.map Prod.fst).Nodup) (added : addReference lists id = .ok more) :
    (more.map Prod.fst).Nodup ∧ ¬Referenced lists id ∧
      (∀ list ∈ more.map Prod.fst, list ∈ lists.map Prod.fst ∨ list = id.listId) ∧
      ∀ other, Referenced more other ↔ Referenced lists other ∨ other = id := by
  induction lists generalizing more with
  | nil =>
    cases added
    refine ⟨List.nodup_singleton _, not_referenced_nil, ?_, fun other => ?_⟩
    · intro list mem
      exact .inr (List.mem_singleton.mp mem)
    · rw [referenced_cons_iff, List.mem_singleton, idTuple_eq_iff, or_comm]
  | cons head rest ih =>
    obtain ⟨list, elements⟩ := head
    obtain ⟨fresh, distinctRest⟩ := List.nodup_cons.mp distinct
    rw [addReference] at added
    split at added
    next sameList =>
      subst sameList
      have noRest : ¬Referenced rest id := fun referenced => fresh referenced.mem_names
      split at added
      next => cases added
      next absent =>
        cases added
        refine ⟨distinct, ?_, fun list mem => .inl mem, fun other => ?_⟩
        · rw [referenced_cons_iff]
          exact fun referenced => referenced.elim (fun here => absent here.2) noRest
        · rw [referenced_cons_iff, referenced_cons_iff, List.mem_append, List.mem_singleton, and_or_left,
            idTuple_eq_iff, or_right_comm]
    next otherList =>
      obtain ⟨behind, isBehind, same⟩ := except_map_eq_ok_iff.mp added
      subst same
      obtain ⟨distinctBehind, noRest, names, referenced⟩ := ih distinctRest isBehind
      refine ⟨List.nodup_cons.mpr ⟨fun mem => ?_, distinctBehind⟩, ?_, ?_, fun other => ?_⟩
      · exact (names list mem).elim fresh fun same => otherList same
      · rw [referenced_cons_iff]
        exact fun isReferenced => isReferenced.elim (fun here => otherList here.1.symm) noRest
      · intro name mem
        rcases List.mem_cons.mp mem with rfl | inBehind
        · exact .inl List.mem_cons_self
        · exact (names name inBehind).imp_left (List.mem_cons_of_mem _)
      · rw [referenced_cons_iff, referenced_cons_iff, referenced other, or_assoc]

/-- The lists have the ids that were referenced, of which none is referenced twice. -/
theorem foldlM_addReference_eq_ok (distinct : (lists.map Prod.fst).Nodup)
    (grouped : ids.foldlM addReference lists = .ok more) : ids.Nodup ∧ (∀ id ∈ ids, ¬Referenced lists id) ∧
      ∀ other, Referenced more other ↔ Referenced lists other ∨ other ∈ ids := by
  induction ids generalizing lists with
  | nil =>
    cases grouped
    exact ⟨List.nodup_nil, List.forall_mem_nil _, fun other => by simp⟩
  | cons id rest ih =>
    rw [List.foldlM_cons] at grouped
    obtain ⟨between, isAdded, isGrouped⟩ := except_bind_eq_ok_iff.mp grouped
    obtain ⟨distinctBetween, isNew, -, added⟩ := addReference_eq_ok distinct isAdded
    obtain ⟨distinctRest, areNew, others⟩ := ih distinctBetween isGrouped
    refine ⟨List.nodup_cons.mpr ⟨fun mem => ?_, distinctRest⟩, ?_, fun other => ?_⟩
    · exact areNew id mem ((added id).mpr (.inr rfl))
    · refine List.forall_mem_cons.mpr ⟨isNew, fun other mem referenced => ?_⟩
      exact areNew other mem ((added other).mpr (.inl referenced))
    · rw [others other, added other, List.mem_cons, or_assoc]

/-- What could be grouped names nothing twice. -/
theorem nodup_of_foldlM_addReference (grouped : ids.foldlM addReference [] = .ok more) : ids.Nodup := by
  have none : (List.map Prod.fst ([] : List (String × List String))).Nodup := List.nodup_nil
  exact (foldlM_addReference_eq_ok none grouped).1

/-- What refuses a reference is that it is there already. -/
theorem addReference_eq_error (refused : addReference lists id = .error error) :
    error = contract .duplicateInBatch := by
  induction lists with
  | nil => cases refused
  | cons head rest ih =>
    rw [addReference] at refused
    split at refused
    next =>
      split at refused
      next =>
        cases refused
        rfl
      next => cases refused
    next =>
      cases behind : addReference rest id with
      | ok more =>
        rw [behind] at refused
        cases refused
      | error reason =>
        rw [behind] at refused
        cases refused
        exact ih behind

theorem foldlM_addReference_eq_error
    (refused : ids.foldlM addReference lists = .error error) : error = contract .duplicateInBatch :=
  except_foldlM_error (· = contract .duplicateInBatch) (fun _ _ _ _ => addReference_eq_error) refused

end References

/-! ## Files -/

/-- A failed call is an error, whatever it is taken for. -/
theorem classify_ne_panicked (error : ApiCallError) : classify error ≠ .panicked := by
  cases error <;> exact Halt.noConfusion

theorem mapError_ne {ε α : Type} {result : Except ε α} {change : ε → Halt}
    (harmless : ∀ error, change error ≠ .panicked) (failed : result.mapError change = .error error) :
    error ≠ .panicked := by
  cases result with
  | ok value => cases failed
  | error reason =>
    cases failed
    exact harmless reason

section Files

variable {π κ δ β : Type} {sdk : Sdk π κ δ} {server : Server π κ δ β}
  {asked after : List (Exchange π κ δ β)} {files more : Dict IdTuple π}

/-- Every file that is held was answered for the id it is held by. -/
def FilesAnswered (sdk : Sdk π κ δ) (asked : List (Exchange π κ δ β)) (files : Dict IdTuple π) : Prop :=
  ∀ id parsed, files.get? id = some parsed → IsAnswered sdk asked id parsed

theorem FilesAnswered.mono (isMore : asked ⊆ after) (answered : FilesAnswered sdk asked files) :
    FilesAnswered sdk after files :=
  fun id parsed found => (answered id parsed found).mono isMore

/-- A file is taken only under its own id, to a request that named it. -/
theorem addParsed_eq_ok {list : String} {parsed : π}
    (added : addParsed sdk list elements files parsed = .ok more) :
    ∃ id, sdk.listElementId parsed = some id ∧ id.listId = list ∧ id.elementId ∈ elements ∧
      more = files.set id parsed := by
  rw [addParsed] at added
  split at added
  next => cases added
  next id isId =>
    split at added
    next => cases added
    next sameList =>
      split at added
      next => cases added
      next isElement =>
        split at added
        next => cases added
        next =>
          cases added
          exact ⟨id, isId, not_not.mp sameList, not_not.mp isElement, rfl⟩

theorem addParsed_ne_panicked {list : String} {parsed : π}
    (refused : addParsed sdk list elements files parsed = .error error) : error ≠ .panicked := by
  rw [addParsed] at refused
  split at refused
  next =>
    cases refused
    exact Halt.noConfusion
  next id isId =>
    repeat' split at refused
    all_goals cases refused
    all_goals exact Halt.noConfusion

/-- What was loaded was answered. -/
theorem loadLists_eq_ok {lists : List (String × List String)} (answered : FilesAnswered sdk asked files)
    (ran : loadLists sdk server files lists asked = (.ok more, after)) : FilesAnswered sdk after more := by
  induction lists generalizing files asked with
  | nil =>
    obtain ⟨rfl, rfl⟩ := Acting.pure_eq_iff.mp ran
    exact answered
  | cons head rest ih =>
    obtain ⟨list, elements⟩ := head
    simp only [loadLists, Acting.bind_eq_iff, Asking.ask_eq_iff, Acting.lift_eq_iff,
      except_mapError_eq_ok_iff] at ran
    obtain ⟨answer, wasAsked, ⟨-, rfl⟩, loaded, _, ⟨rfl, rfl⟩, between, _, ⟨isAdded, rfl⟩, ran⟩ := ran
    refine ih ?_ ran
    refine except_foldlM_invariant (FilesAnswered sdk _) ?_ (answered.mono (List.subset_append_left _ _)) isAdded
    intro state holds parsed mem next added other found isFound
    obtain ⟨id, isId, rfl, isElement, rfl⟩ := addParsed_eq_ok added
    rw [Dict.get?_set] at isFound
    split at isFound
    next same =>
      cases isFound
      subst same
      exact ⟨isId, elements, loaded, List.mem_append_right _ (List.mem_singleton.mpr rfl), isElement, mem⟩
    next => exact holds other found isFound

theorem never_loadLists (lists : List (String × List String)) (files : Dict IdTuple π)
    (asked : List (Exchange π κ δ β)) : Acting.Never (· = .panicked) (loadLists sdk server files lists) asked := by
  induction lists generalizing files asked with
  | nil => exact Acting.never_pure files
  | cons head rest ih =>
    refine (Asking.never_ask _ _).bind fun answer wasAsked _ => ?_
    refine (Acting.never_lift ?_).bind fun loaded _ _ => (Acting.never_lift ?_).bind fun more same _ => ?_
    · exact fun error isError => mapError_ne classify_ne_panicked isError
    · exact fun error isError =>
        except_foldlM_error (¬· = Halt.panicked) (fun _ _ _ _ => addParsed_ne_panicked) isError
    · exact ih more same

end Files

/-! ## Keys -/

section Keys

variable {π κ δ β : Type} {sdk : Sdk π κ δ} {server : Server π κ δ β} {mail : AttachedMail β}
  {asked after : List (Exchange π κ δ β)} {files : Dict IdTuple π}
  {keys more : Dict IdTuple (ResolvedSessionKey κ)}

theorem present_eq_iff {α : Type} {held : Option α} {item : α} :
    (present held : Asking (Exchange π κ δ β) Halt α) asked = (.ok item, after) ↔ held = some item ∧ asked = after := by
  cases held <;> simp [present, Acting.lift]

theorem keeps_present {α : Type} (held : Option α) : Asking.Keeps (present held : Asking (Exchange π κ δ β) Halt α) :=
  Acting.within_lift _

/-- What is there is not missed. -/
theorem never_present {α : Type} {held : Option α} (isThere : held.isSome = true) :
    Acting.Never (· = .panicked) (present held : Asking (Exchange π κ δ β) Halt α) asked := by
  obtain ⟨item, rfl⟩ := Option.isSome_iff_exists.mp isThere
  intro error stopped
  cases stopped

/-- Every key that is held is that of the file that is held by the same id. -/
def KeysAnswered (sdk : Sdk π κ δ) (mail : AttachedMail β) (asked : List (Exchange π κ δ β))
    (files : Dict IdTuple π) (keys : Dict IdTuple (ResolvedSessionKey κ)) : Prop :=
  ∀ id key, keys.get? id = some key → ∃ parsed, files.get? id = some parsed ∧ HasKey sdk mail asked id parsed key

theorem KeysAnswered.mono (isMore : asked ⊆ after) (answered : KeysAnswered sdk mail asked files keys) :
    KeysAnswered sdk mail after files keys := by
  intro id key found
  obtain ⟨parsed, isParsed, hasKey⟩ := answered id key found
  exact ⟨parsed, isParsed, hasKey.mono isMore⟩

theorem keeps_ownKeys (files : Dict IdTuple π) (ids : List IdTuple) (keys : Dict IdTuple (ResolvedSessionKey κ))
    (fromBucket : List IdTuple) : Asking.Keeps (ownKeys sdk server files keys fromBucket ids) := by
  induction ids generalizing keys fromBucket with
  | nil => exact Acting.within_pure _
  | cons id rest ih =>
    refine (keeps_present _).bind fun parsed => ?_
    split
    · exact (Asking.keeps_ask _ _).bind fun answer => (Acting.within_lift _).bind fun resolved =>
        (Acting.within_lift _).bind fun key => ih _ _
    · exact ih _ _

/-- What the loop over the own keys makes of the keys it has, and of the ids left to the bucket. -/
structure OwnKeys (sdk : Sdk π κ δ) (mail : AttachedMail β) (asked : List (Exchange π κ δ β))
    (files : Dict IdTuple π) (keys : Dict IdTuple (ResolvedSessionKey κ)) (fromBucket : List IdTuple) : Prop where
  answered : KeysAnswered sdk mail asked files keys
  carriesNone : ∀ id ∈ fromBucket, ∃ parsed, files.get? id = some parsed ∧
    sdk.hasOwnerEncSessionKey parsed = false

theorem ownKeys_empty : OwnKeys sdk mail asked files Table.empty [] :=
  ⟨fun id key found => absurd found (by simp), List.forall_mem_nil _⟩

/-- Every attachment gets its own key or is left to the bucket. -/
theorem ownKeys_eq_ok {ids fromBucket left : List IdTuple} (own : OwnKeys sdk mail asked files keys fromBucket)
    (ran : ownKeys sdk server files keys fromBucket ids asked = (.ok (more, left), after)) :
    OwnKeys sdk mail after files more left ∧ left.Sublist (fromBucket ++ ids) ∧ fromBucket ⊆ left ∧
      (∀ id, (keys.get? id).isSome = true → (more.get? id).isSome = true) ∧
      ∀ id ∈ ids, (more.get? id).isSome = true ∨ id ∈ left := by
  induction ids generalizing keys fromBucket asked with
  | nil =>
    obtain ⟨same, rfl⟩ := Acting.pure_eq_iff.mp ran
    cases same
    exact ⟨own, by rw [List.append_nil], List.Subset.refl _, fun _ isThere => isThere, List.forall_mem_nil _⟩
  | cons id rest ih =>
    rw [ownKeys, Acting.bind_eq_iff] at ran
    obtain ⟨parsed, _, isPresent, ran⟩ := ran
    obtain ⟨isParsed, rfl⟩ := present_eq_iff.mp isPresent
    split at ran
    next carries =>
      simp only [Acting.bind_eq_iff, Asking.ask_eq_iff, Acting.lift_eq_iff, except_mapError_eq_ok_iff] at ran
      obtain ⟨answer, _, ⟨-, rfl⟩, resolved, _, ⟨rfl, rfl⟩, key, _, ⟨isKey, rfl⟩, ran⟩ := ran
      obtain rfl : resolved = some key := by
        cases resolved with
        | none => cases isKey
        | some other =>
          cases isKey
          rfl
      have isMore : asked ⊆ asked ++ [Exchange.resolveSessionKey parsed (.ok (some key))] :=
        List.subset_append_left _ _
      have extended : OwnKeys sdk mail (asked ++ [Exchange.resolveSessionKey parsed (.ok (some key))]) files
          (keys.set id key) fromBucket := by
        refine ⟨fun other found isFound => ?_, own.carriesNone⟩
        rw [Dict.get?_set] at isFound
        split at isFound
        next same =>
          cases isFound
          subst same
          exact ⟨parsed, isParsed, .own carries (List.mem_append_right _ (List.mem_singleton.mpr rfl))⟩
        next => exact own.answered.mono isMore other found isFound
      obtain ⟨isOwn, isSublist, isKept, areKept, areFound⟩ := ih extended ran
      refine ⟨isOwn, isSublist.trans ?_, isKept, fun other isThere => areKept other ?_, ?_⟩
      · exact (List.Sublist.refl _).append (List.sublist_cons_self id rest)
      · rw [Dict.get?_set]
        split
        · rfl
        · exact isThere
      · refine List.forall_mem_cons.mpr ⟨.inl (areKept id ?_), areFound⟩
        rw [Dict.get?_set, if_pos rfl, Option.isSome_some]
    next carries =>
      have extended : OwnKeys sdk mail asked files keys (fromBucket ++ [id]) := by
        refine ⟨own.answered, fun other mem => ?_⟩
        rcases List.mem_append.mp mem with before | isId
        · exact own.carriesNone other before
        · rw [List.mem_singleton.mp isId]
          exact ⟨parsed, isParsed, by simpa using carries⟩
      obtain ⟨isOwn, isSublist, isKept, areKept, areFound⟩ := ih extended ran
      rw [List.append_assoc, List.singleton_append] at isSublist
      obtain ⟨keptBefore, keptId⟩ := List.append_subset.mp isKept
      refine ⟨isOwn, isSublist, keptBefore, areKept, List.forall_mem_cons.mpr ⟨.inr ?_, areFound⟩⟩
      exact keptId List.mem_cons_self

theorem never_ownKeys (areThere : ∀ id ∈ ids, (files.get? id).isSome = true)
    (keys : Dict IdTuple (ResolvedSessionKey κ)) (fromBucket : List IdTuple) (asked : List (Exchange π κ δ β)) :
    Acting.Never (· = .panicked) (ownKeys sdk server files keys fromBucket ids) asked := by
  induction ids generalizing keys fromBucket asked with
  | nil => exact Acting.never_pure _
  | cons id rest ih =>
    obtain ⟨isThere, others⟩ := List.forall_mem_cons.mp areThere
    refine (never_present isThere).bind fun parsed same _ => ?_
    split
    · refine (Asking.never_ask _ _).bind fun answer _ _ => (Acting.never_lift ?_).bind fun resolved _ _ =>
        (Acting.never_lift ?_).bind fun key _ _ => ih others _ _ _
      · exact fun error isError => mapError_ne (fun _ => Halt.noConfusion) isError
      · intro error isError
        cases resolved <;> cases isError
        exact Halt.noConfusion
    · exact ih others _ _ _

theorem get?_extendKeys {entries : List (IdTuple × ResolvedSessionKey κ)}
    {key : ResolvedSessionKey κ} (found : (extendKeys keys entries).get? id = some key) :
    (id, key) ∈ entries ∨ keys.get? id = some key := by
  induction entries generalizing keys with
  | nil => exact .inr found
  | cons entry rest ih =>
    rcases ih found with inRest | isSet
    · exact .inl (List.mem_cons_of_mem _ inRest)
    · rw [Dict.get?_set] at isSet
      split at isSet
      next same =>
        cases isSet
        subst same
        exact .inl List.mem_cons_self
      next => exact .inr isSet

theorem isSome_get?_extendKeys (entries : List (IdTuple × ResolvedSessionKey κ))
    (isThere : id ∈ entries.map Prod.fst ∨ (keys.get? id).isSome = true) :
    ((extendKeys keys entries).get? id).isSome = true := by
  induction entries generalizing keys with
  | nil => exact isThere.resolve_left List.not_mem_nil
  | cons entry rest ih =>
    refine ih ?_
    rw [Dict.get?_set]
    split
    next => exact .inr rfl
    next other =>
      refine isThere.imp_left fun mem => ?_
      rw [List.map_cons, List.mem_cons] at mem
      exact mem.resolve_left other

theorem keeps_anyOtherGroup (group : String) (ids : List IdTuple) :
    Asking.Keeps (anyOtherGroup sdk files group ids : Asking (Exchange π κ δ β) Halt Bool) := by
  induction ids with
  | nil => exact Acting.within_pure _
  | cons id rest ih =>
    refine (keeps_present _).bind fun parsed => ?_
    split
    · exact Acting.within_pure _
    · exact ih

/-- Where no file is of another group, all are of this one. -/
theorem anyOtherGroup_eq_false {group : String}
    (ran : anyOtherGroup sdk files group ids asked = (.ok false, after)) :
    asked = after ∧ ∀ id ∈ ids, ∃ parsed, files.get? id = some parsed ∧ sdk.ownerGroup parsed = some group := by
  induction ids with
  | nil => exact ⟨(Acting.pure_eq_iff.mp ran).2, List.forall_mem_nil _⟩
  | cons id rest ih =>
    rw [anyOtherGroup, Acting.bind_eq_iff] at ran
    obtain ⟨parsed, _, isPresent, ran⟩ := ran
    obtain ⟨isParsed, rfl⟩ := present_eq_iff.mp isPresent
    split at ran
    next =>
      obtain ⟨isTrue, -⟩ := Acting.pure_eq_iff.mp ran
      cases isTrue
    next sameGroup =>
      obtain ⟨same, others⟩ := ih ran
      exact ⟨same, List.forall_mem_cons.mpr ⟨⟨parsed, isParsed, not_not.mp sameGroup⟩, others⟩⟩

theorem never_anyOtherGroup (areThere : ∀ id ∈ ids, (files.get? id).isSome = true)
    (group : String) (asked : List (Exchange π κ δ β)) :
    Acting.Never (· = .panicked) (anyOtherGroup sdk files group ids) asked := by
  induction ids generalizing asked with
  | nil => exact Acting.never_pure _
  | cons id rest ih =>
    obtain ⟨isThere, others⟩ := List.forall_mem_cons.mp areThere
    refine (never_present isThere).bind fun parsed after _ => ?_
    split
    · exact Acting.never_pure _
    · exact ih others after

theorem keeps_bucketKeys (keys : Dict IdTuple (ResolvedSessionKey κ)) (fromBucket : List IdTuple) :
    Asking.Keeps (bucketKeys sdk server mail files keys fromBucket) := by
  rw [bucketKeys]
  split
  · exact Acting.within_pure _
  · refine (Acting.within_lift _).bind fun bucket => (Acting.within_lift _).bind fun group =>
      (keeps_anyOtherGroup group fromBucket).bind fun isOther => ?_
    split
    · exact Acting.within_lift _
    · exact (Asking.keeps_ask _ _).bind fun answer => (Acting.within_lift _).bind fun resolved =>
        Acting.within_pure _

/-- The bucket has a key for every attachment that is left to it, and just for that one. -/
theorem bucketKeys_eq_ok {fromBucket : List IdTuple} (own : OwnKeys sdk mail asked files keys fromBucket)
    (distinct : fromBucket.Nodup) (ran : bucketKeys sdk server mail files keys fromBucket asked = (.ok more, after)) :
    KeysAnswered sdk mail after files more ∧ (∀ id, (keys.get? id).isSome = true → (more.get? id).isSome = true) ∧
      (server.KeyForEach → ∀ id ∈ fromBucket, (more.get? id).isSome = true) := by
  rw [bucketKeys] at ran
  split at ran
  next isEmpty =>
    obtain ⟨rfl, rfl⟩ := Acting.pure_eq_iff.mp ran
    refine ⟨own.answered, fun _ isThere => isThere, fun _ id mem => ?_⟩
    rw [isEmpty] at mem
    cases mem
  next =>
    simp only [Acting.bind_eq_iff, Acting.lift_eq_iff] at ran
    obtain ⟨bucket, _, ⟨isBucket, rfl⟩, group, _, ⟨isGroup, rfl⟩, isOther, _, isSame, ran⟩ := ran
    obtain isBucket : mail.bucketKey = some bucket := by
      cases found : mail.bucketKey <;> rw [found] at isBucket <;> cases isBucket
      rfl
    obtain isGroup : mail.ownerGroup = some group := by
      cases found : mail.ownerGroup <;> rw [found] at isGroup <;> cases isGroup
      rfl
    cases isOther with
    | true => exact absurd ran Acting.stop_ne
    | false =>
      obtain ⟨rfl, sameGroup⟩ := anyOtherGroup_eq_false isSame
      simp only [Bool.false_eq_true, if_false, Acting.bind_eq_iff, Asking.ask_eq_iff, Acting.lift_eq_iff,
        except_mapError_eq_ok_iff, Acting.pure_eq_iff] at ran
      obtain ⟨answer, _, ⟨isAnswer, rfl⟩, resolved, _, ⟨rfl, rfl⟩, rfl, rfl⟩ := ran
      refine ⟨fun id key found => ?_, fun id isThere => isSome_get?_extendKeys _ (.inr isThere),
        fun keyForEach id mem => ?_⟩
      · rcases get?_extendKeys found with isZipped | isOwn
        · have mem := (List.of_mem_zip isZipped).1
          obtain ⟨parsed, isParsed, carries⟩ := own.carriesNone id mem
          obtain ⟨other, isOther, ofGroup⟩ := sameGroup id mem
          obtain rfl : parsed = other := Option.some.inj (isParsed.symm.trans isOther)
          exact ⟨parsed, isParsed, .bucket carries bucket group fromBucket resolved isBucket isGroup ofGroup
            (List.mem_append_right _ (List.mem_singleton.mpr rfl)) distinct isZipped⟩
        · exact own.answered.mono (List.subset_append_left _ _) id key isOwn
      · have sameLength := keyForEach _ bucket group fromBucket resolved isAnswer
        refine isSome_get?_extendKeys _ (.inl ?_)
        rw [List.map_fst_zip (Nat.le_of_eq sameLength.symm)]
        exact mem

theorem never_bucketKeys {fromBucket : List IdTuple} (areThere : ∀ id ∈ fromBucket, (files.get? id).isSome = true)
    (keys : Dict IdTuple (ResolvedSessionKey κ)) (asked : List (Exchange π κ δ β)) :
    Acting.Never (· = .panicked) (bucketKeys sdk server mail files keys fromBucket) asked := by
  rw [bucketKeys]
  split
  · exact Acting.never_pure _
  · refine (Acting.never_lift ?_).bind fun bucket _ _ => (Acting.never_lift ?_).bind fun group between _ =>
      (never_anyOtherGroup areThere group between).bind fun isOther after _ => ?_
    · intro error isError
      cases found : mail.bucketKey <;> rw [found] at isError <;> cases isError
      exact Halt.noConfusion
    · intro error isError
      cases found : mail.ownerGroup <;> rw [found] at isError <;> cases isError
      exact Halt.noConfusion
    · split
      · exact Acting.never_lift fun error isError => by
          cases isError
          exact Halt.noConfusion
      · refine (Asking.never_ask _ _).bind fun answer _ _ => (Acting.never_lift ?_).bind fun resolved _ _ =>
          Acting.never_pure _
        refine fun error isError => mapError_ne (fun reason => ?_) isError
        cases reason <;> exact Halt.noConfusion

end Keys

/-! ## Data -/

section Data

variable {π κ δ β : Type} {sdk : Sdk π κ δ} {server : Server π κ δ β} {key : κ} {owner : IdTuple}
  {asked after : List (Exchange π κ δ β)} {chunks more : Dict (String × String) (List UInt8)}

/-- Every chunk that is held is that of the blob it is held by. -/
def ChunksAnswered (sdk : Sdk π κ δ) (asked : List (Exchange π κ δ β)) (key : κ) (owner : IdTuple)
    (chunks : Dict (String × String) (List UInt8)) : Prop :=
  ∀ blob : FileBlob, ∀ data, chunks.get? (blob.archiveId, blob.blobId) = some data →
    HasBlob sdk asked key owner blob data

theorem ChunksAnswered.mono (isMore : asked ⊆ after) (answered : ChunksAnswered sdk asked key owner chunks) :
    ChunksAnswered sdk after key owner chunks :=
  fun blob data found => (answered blob data found).mono isMore

theorem keeps_downloadArchives (archives : List (String × List String))
    (chunks : Dict (String × String) (List UInt8)) :
    Asking.Keeps (downloadArchives sdk server key owner chunks archives) := by
  induction archives generalizing chunks with
  | nil => exact Acting.within_pure chunks
  | cons head rest ih =>
    exact (Asking.keeps_ask _ _).bind fun answer => (Acting.within_lift _).bind fun encrypted =>
      (Acting.within_lift _).bind fun more => ih more

/-- What was downloaded was answered. -/
theorem downloadArchives_eq_ok {archives : List (String × List String)}
    (answered : ChunksAnswered sdk asked key owner chunks)
    (ran : downloadArchives sdk server key owner chunks archives asked = (.ok more, after)) :
    ChunksAnswered sdk after key owner more := by
  induction archives generalizing chunks asked with
  | nil =>
    obtain ⟨rfl, rfl⟩ := Acting.pure_eq_iff.mp ran
    exact answered
  | cons head rest ih =>
    obtain ⟨archive, ids⟩ := head
    simp only [downloadArchives, Acting.bind_eq_iff, Asking.ask_eq_iff, Acting.lift_eq_iff] at ran
    obtain ⟨answer, _, ⟨-, rfl⟩, encrypted, _, ⟨rfl, rfl⟩, between, _, ⟨isAdded, rfl⟩, ran⟩ := ran
    refine ih ?_ ran
    refine except_foldlM_invariant (ChunksAnswered sdk _ key owner) ?_
      (answered.mono (List.subset_append_left _ _)) isAdded
    intro state holds blob mem next added other data found
    rw [addChunk] at added
    split at added
    next decrypted isDecrypted =>
      cases added
      rw [Dict.get?_set] at found
      split at found
      next same =>
        obtain ⟨isArchive, isBlob⟩ := Prod.mk.inj same
        cases found
        refine ⟨ids, encrypted, blob.2, List.mem_append_right _ (List.mem_singleton.mpr ?_), ?_, isDecrypted⟩
        · rw [isArchive]
        · rw [isBlob]
          exact mem
      next => exact holds other data found
    next => cases added

theorem keeps_loadFileAttachmentData (file : File) (key : κ) :
    Asking.Keeps (loadFileAttachmentData sdk server file key) := by
  rw [loadFileAttachmentData]
  split
  · exact Acting.within_pure _
  · exact (Acting.within_lift _).bind fun owner => (keeps_downloadArchives _ _).bind fun chunks =>
      (Acting.within_lift _).bind fun parts => Acting.within_pure _

/-- The data of a file is that of its blobs, in their order. -/
theorem loadFileAttachmentData_eq_ok {file : File} {data : List UInt8}
    (ran : loadFileAttachmentData sdk server file key asked = (.ok data, after)) :
    HasData sdk after key file data := by
  rw [loadFileAttachmentData] at ran
  split at ran
  next noBlobs =>
    obtain ⟨rfl, rfl⟩ := Acting.pure_eq_iff.mp ran
    exact ⟨[], rfl, .inl ⟨noBlobs, rfl⟩⟩
  next =>
    simp only [Acting.bind_eq_iff, Acting.lift_eq_iff, Acting.pure_eq_iff] at ran
    obtain ⟨owner, _, ⟨isOwner, rfl⟩, chunks, between, isDownloaded, parts, _, ⟨areParts, rfl⟩, rfl, rfl⟩ := ran
    obtain isOwner : file.id = some owner := by
      cases found : file.id <;> rw [found] at isOwner <;> cases isOwner
      rfl
    have answered := downloadArchives_eq_ok (fun blob data found => absurd found (by simp)) isDownloaded
    refine ⟨parts, rfl, .inr ⟨owner, isOwner, (except_mapM_forall₂ areParts).imp fun blob part isPart => ?_⟩⟩
    rw [chunkOf] at isPart
    split at isPart
    next found =>
      cases isPart
      exact answered blob _ found
    next => cases isPart

end Data

/-! ## All attachments -/

section Each

variable {π κ δ β : Type} {sdk : Sdk π κ δ} {server : Server π κ δ β} {mail : AttachedMail β}
  {asked after : List (Exchange π κ δ β)} {files : Dict IdTuple π}
  {keys : Dict IdTuple (ResolvedSessionKey κ)} {ids : List IdTuple}

theorem keeps_loadEach (files : Dict IdTuple π) (keys : Dict IdTuple (ResolvedSessionKey κ)) (ids : List IdTuple) :
    Asking.Keeps (loadEach sdk server files keys ids) := by
  induction ids generalizing files keys with
  | nil => exact Acting.within_pure _
  | cons id rest ih =>
    exact (keeps_present _).bind fun parsed => (keeps_present _).bind fun key =>
      (Asking.keeps_ask _ _).bind fun answer => (Acting.within_lift _).bind fun decrypted =>
        (Acting.within_lift _).bind fun mapped => (Acting.within_lift _).bind fun file =>
          (keeps_loadFileAttachmentData file key.sessionKey).mapError.bind fun data =>
            (ih _ _).bind fun others => Acting.within_pure _

/-- Every attachment is loaded with the file and the key that are held for it. -/
theorem loadEach_eq_ok {loaded : List (File × List UInt8)} (filesAnswered : FilesAnswered sdk asked files)
    (keysAnswered : KeysAnswered sdk mail asked files keys)
    (ran : loadEach sdk server files keys ids asked = (.ok loaded, after)) :
    List.Forall₂ (IsLoaded sdk mail after) ids loaded := by
  induction ids generalizing files keys asked loaded with
  | nil =>
    obtain ⟨rfl, -⟩ := Acting.pure_eq_iff.mp ran
    exact .nil
  | cons id rest ih =>
    simp only [loadEach, Acting.bind_eq_iff, present_eq_iff, Asking.ask_eq_iff, Acting.lift_eq_iff,
      Acting.mapError_eq_iff, Acting.pure_eq_iff, except_mapError_eq_ok_iff] at ran
    obtain ⟨parsed, _, ⟨isParsed, rfl⟩, key, _, ⟨isKey, rfl⟩, answer, wasAsked, ⟨-, rfl⟩, decrypted, _, ⟨rfl, rfl⟩,
      mapped, _, ⟨isMapped, rfl⟩, file, _, ⟨isFile, rfl⟩, data, withData, isData, others, _, areOthers, rfl,
      rfl⟩ := ran
    have isMore := List.subset_append_left asked [Exchange.decryptParsed parsed key (.ok decrypted)]
    have keepsData := Asking.Keeps.subset (keeps_loadFileAttachmentData file key.sessionKey) isData
    have keepsOthers := Asking.Keeps.subset (keeps_loadEach _ _ _) areOthers
    have keepsAll := List.Subset.trans isMore (List.Subset.trans keepsData keepsOthers)
    obtain ⟨other, isOther, hasKey⟩ := keysAnswered id key isKey
    obtain rfl : parsed = other := Option.some.inj (isParsed.symm.trans isOther)
    refine .cons ⟨parsed, key, ?_, ?_, ?_, ?_⟩ (ih ?_ ?_ areOthers)
    · exact (filesAnswered id parsed isParsed).mono keepsAll
    · exact hasKey.mono keepsAll
    · refine ⟨decrypted, mapped, keepsOthers (keepsData ?_), isMapped, isFile⟩
      exact List.mem_append_right _ (List.mem_singleton.mpr rfl)
    · exact (loadFileAttachmentData_eq_ok isData).mono keepsOthers
    · intro other parsed found
      rw [Dict.get?_erase] at found
      split at found
      next => cases found
      next =>
        exact (filesAnswered other parsed found).mono (List.Subset.trans isMore keepsData)
    · intro other otherKey found
      rw [Dict.get?_erase] at found
      split at found
      next => cases found
      next different =>
        obtain ⟨otherParsed, isOtherParsed, otherHasKey⟩ := keysAnswered other otherKey found
        refine ⟨otherParsed, ?_, otherHasKey.mono (List.Subset.trans isMore keepsData)⟩
        rw [Dict.get?_erase, if_neg different]
        exact isOtherParsed

/-- What was loaded and has a key is there when it is taken, once. -/
theorem never_loadEach (distinct : ids.Nodup) (haveFiles : ∀ id ∈ ids, (files.get? id).isSome = true)
    (haveKeys : ∀ id ∈ ids, (keys.get? id).isSome = true) (asked : List (Exchange π κ δ β)) :
    Acting.Never (· = .panicked) (loadEach sdk server files keys ids) asked := by
  induction ids generalizing files keys asked with
  | nil => exact Acting.never_pure _
  | cons id rest ih =>
    obtain ⟨fresh, distinctRest⟩ := List.nodup_cons.mp distinct
    obtain ⟨hasFile, restFiles⟩ := List.forall_mem_cons.mp haveFiles
    obtain ⟨hasKey, restKeys⟩ := List.forall_mem_cons.mp haveKeys
    refine (never_present hasFile).bind fun parsed _ _ => (never_present hasKey).bind fun key _ _ =>
      (Asking.never_ask _ _).bind fun answer _ _ => (Acting.never_lift ?_).bind fun decrypted _ _ =>
        (Acting.never_lift ?_).bind fun mapped _ _ => (Acting.never_lift ?_).bind fun file between _ =>
          Acting.Never.bind ?_ fun data withData _ =>
            (ih distinctRest ?_ ?_ withData).bind fun others _ _ => Acting.never_pure _
    · exact fun error isError => mapError_ne classify_ne_panicked isError
    · intro error isError
      rw [mapFile] at isError
      split at isError
      next =>
        cases isError
        exact Halt.noConfusion
      next =>
        split at isError
        next => cases isError
        next =>
          cases isError
          exact Halt.noConfusion
    · intro error isError
      rw [withEnvelope] at isError
      split at isError
      next => cases isError
      next =>
        cases isError
        exact Halt.noConfusion
    · exact fun error isError => mapError_ne classify_ne_panicked isError
    · intro other mem
      have different : other ≠ id := fun same => fresh (same ▸ mem)
      rw [Dict.get?_erase, if_neg different]
      exact restFiles other mem
    · intro other mem
      have different : other ≠ id := fun same => fresh (same ▸ mem)
      rw [Dict.get?_erase, if_neg different]
      exact restKeys other mem

/-- What is returned is every attachment as it was loaded, in the order of the mail. -/
theorem loadAttachments_eq_ok {loaded : List (File × List UInt8)}
    (ran : loadAttachments sdk server mail asked = (.ok loaded, after)) :
    List.Forall₂ (IsLoaded sdk mail after) mail.attachments loaded := by
  rw [loadAttachments] at ran
  split at ran
  next none =>
    obtain ⟨rfl, rfl⟩ := Acting.pure_eq_iff.mp ran
    rw [none]
    exact .nil
  next =>
    simp only [Acting.bind_eq_iff, Acting.lift_eq_iff] at ran
    obtain ⟨-, _, ⟨-, rfl⟩, lists, _, ⟨areLists, rfl⟩, files, _, areFiles, ran⟩ := ran
    have distinct := nodup_of_foldlM_addReference areLists
    have filesAnswered := loadLists_eq_ok (fun id parsed found => absurd found (by simp)) areFiles
    split at ran
    next => exact absurd ran Acting.stop_ne
    next =>
      simp only [Acting.bind_eq_iff] at ran
      obtain ⟨⟨own, left⟩, withOwn, isOwn, keys, withKeys, areKeys, areLoaded⟩ := ran
      obtain ⟨ownKeys, isSublist, -, -, -⟩ := ownKeys_eq_ok ownKeys_empty isOwn
      have keysAnswered := (bucketKeys_eq_ok ownKeys (isSublist.nodup distinct) areKeys).1
      have keepsOwn := Asking.Keeps.subset (keeps_ownKeys _ _ _ _) isOwn
      have keepsKeys := Asking.Keeps.subset (keeps_bucketKeys _ _) areKeys
      exact loadEach_eq_ok (filesAnswered.mono (List.Subset.trans keepsOwn keepsKeys)) keysAnswered areLoaded

/-- Nothing that the code takes for granted is missing. -/
theorem never_loadAttachments (keyForEach : server.KeyForEach) (asked : List (Exchange π κ δ β)) :
    Acting.Never (· = .panicked) (loadAttachments sdk server mail) asked := by
  rw [loadAttachments]
  split
  · exact Acting.never_pure _
  · refine (Acting.never_lift ?_).bind fun _ _ _ => (Acting.never_lift ?_).bind fun lists between areLists =>
      (never_loadLists lists _ between).bind fun files withFiles _ => ?_
    · exact fun error isError => mapError_ne (fun _ => Halt.noConfusion) isError
    · intro error isError
      rw [foldlM_addReference_eq_error isError]
      exact Halt.noConfusion
    · have distinct := nodup_of_foldlM_addReference (Acting.lift_eq_iff.mp areLists).1
      split
      next =>
        refine Acting.never_lift fun error isError => ?_
        cases isError
        exact Halt.noConfusion
      next complete =>
        have haveFiles : ∀ id ∈ mail.attachments, (files.get? id).isSome = true := by
          simpa [Option.isSome_iff_ne_none] using complete
        refine (never_ownKeys haveFiles _ _ _).bind fun own withOwn isOwn => ?_
        obtain ⟨own, left⟩ := own
        obtain ⟨ownKeys, isSublist, -, -, areFound⟩ := ownKeys_eq_ok ownKeys_empty isOwn
        have leftHave : ∀ id ∈ left, (files.get? id).isSome = true :=
          fun id mem => haveFiles id (isSublist.subset mem)
        refine (never_bucketKeys leftHave _ _).bind fun keys withKeys areKeys => ?_
        obtain ⟨-, areKept, fromBucket⟩ := bucketKeys_eq_ok ownKeys (isSublist.nodup distinct) areKeys
        refine never_loadEach distinct haveFiles (fun id mem => ?_) withKeys
        exact (areFound id mem).elim (areKept id) (fromBucket keyForEach id)

/-- A duplicate reference is refused, and nothing is asked for it. -/
theorem loadAttachments_of_not_nodup (duplicate : ¬mail.attachments.Nodup)
    (hasModel : sdk.resolveServerTypeRef = .ok ()) (asked : List (Exchange π κ δ β)) :
    loadAttachments sdk server mail asked = (.error (contract .duplicateInBatch), asked) := by
  have nonempty : mail.attachments ≠ [] := fun none => duplicate (none ▸ List.nodup_nil)
  cases grouped : mail.attachments.foldlM addReference [] with
  | ok lists => exact absurd (nodup_of_foldlM_addReference grouped) duplicate
  | error error =>
    rw [loadAttachments, if_neg nonempty, hasModel, grouped, foldlM_addReference_eq_error grouped]
    rfl

/-- Without the type model nothing is asked either. -/
theorem loadAttachments_of_error (nonempty : mail.attachments ≠ []) {error : ApiCallError}
    (noModel : sdk.resolveServerTypeRef = .error error) (asked : List (Exchange π κ δ β)) :
    loadAttachments sdk server mail asked = (.error (.failed (.indeterminate error)), asked) := by
  rw [loadAttachments, if_neg nonempty, noModel]
  rfl

/-- All attachments are loaded, each with its own key and its own blobs, or none is: what a mail
names twice is refused before anything is asked, and nothing that is taken for granted is missing. -/
theorem loadAttachments_allOrNothing (sdk : Sdk π κ δ) (server : Server π κ δ β) (mail : AttachedMail β)
    (keyForEach : server.KeyForEach) : (∀ loaded asked, loadAttachments sdk server mail [] = (.ok loaded, asked) →
        List.Forall₂ (IsLoaded sdk mail asked) mail.attachments loaded) ∧
      (loadAttachments sdk server mail []).1 ≠ .error .panicked ∧
      (¬mail.attachments.Nodup → ∃ error, loadAttachments sdk server mail [] = (.error error, []) ∧
        (sdk.resolveServerTypeRef = .ok () → error = contract .duplicateInBatch)) := by
  refine ⟨fun loaded asked => loadAttachments_eq_ok,
    fun stopped => never_loadAttachments keyForEach [] _ stopped rfl, fun duplicate => ?_⟩
  cases isModel : sdk.resolveServerTypeRef with
  | ok =>
    exact ⟨_, loadAttachments_of_not_nodup duplicate isModel [], fun _ => rfl⟩
  | error error =>
    have nonempty : mail.attachments ≠ [] := fun none => duplicate (none ▸ List.nodup_nil)
    exact ⟨_, loadAttachments_of_error nonempty isModel [], fun isOk => by cases isOk⟩

end Each

/-! ## A mail with two attachments -/

section Sample

/-- A loaded file is its id and whether it carries a key; a key is what is added to every byte. -/
def sampleSdk : Sdk (IdTuple × Bool) UInt8 File where
  resolveServerTypeRef := .ok ()
  listElementId parsed := some parsed.1
  hasOwnerEncSessionKey parsed := parsed.2
  ownerGroup _ := some "g"
  parseEntity file := .ok file
  decryptData key bytes := .ok (bytes.map (· - key))

def sampleFile (id : IdTuple) : File where
  id := some id
  metadata := { name := "n", mimeType := none, cid := none }
  blobs := [⟨"a", "1"⟩, ⟨"a", "2"⟩]
  errors := []
  ownerKeyVersion := none
  ownerEncSessionKey := none

/-- A server that answers everything in reverse. -/
def sampleServer : Server (IdTuple × Bool) UInt8 File Unit where
  loadMultiple _ list elements := .ok (elements.reverse.map fun element => (⟨list, element⟩, element = "x"))
  resolveSessionKey _ _ := .ok (some ⟨1, [], 0⟩)
  resolveBucketInstanceKeys _ _ _ ids := .ok (ids.map fun _ => ⟨2, [], 0⟩)
  decryptParsed _ parsed _ := .ok (sampleFile parsed.1)
  downloadBlobs _ _ owner _ := .ok (if owner.elementId = "x" then [("2", [4]), ("1", [3])] else [("2", [6]), ("1", [5])])
  archiveOrder archives := archives
  archiveOrder_perm _ := List.Perm.refl _

/-- One attachment with a key of its own, and one that is left to the bucket. -/
def sampleMail : AttachedMail Unit := ⟨[⟨"l", "x"⟩, ⟨"l", "y"⟩], some (), some "g"⟩

theorem sampleServer_keyForEach : sampleServer.KeyForEach := by
  intro asked bucket group ids keys answered
  cases answered
  exact List.length_map _

/-- Each file gets its own key and its own bytes. -/
theorem loadAttachments_sampleMail : ∃ asked,
    List.Forall₂ (IsLoaded sampleSdk sampleMail asked) sampleMail.attachments
      [({ sampleFile ⟨"l", "x"⟩ with ownerKeyVersion := some 0, ownerEncSessionKey := some [] }, [2, 3]),
        ({ sampleFile ⟨"l", "y"⟩ with ownerKeyVersion := some 0, ownerEncSessionKey := some [] }, [3, 4])] :=
  ⟨_, (loadAttachments_allOrNothing sampleSdk sampleServer sampleMail sampleServer_keyForEach).1 _ _ rfl⟩

end Sample

end TutaBridge.Tuta.Attachments
