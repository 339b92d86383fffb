import Mathlib.Data.Finset.Card
import Mathlib.Data.List.MinMax
import TutaBridge.Std.Table

/-!
# Caches with a bound

A cache holds at most so many entries, each with the time it was stored at. Where a new key finds it full,
the entry that was stored first gives way, and an entry past its time may be dropped. What is held under a
key is what was stored under it last. While it is in time, fewer other keys than the cache holds came after
it; and where fewer came, it is held, in one order of the walks at least when several were stored at once.
-/

namespace TutaBridge.Std

/-- A value and when it was stored. -/
structure Stamped (ν : Type) where
  storedAt : Nat
  value : ν
deriving DecidableEq, Repr

/-- A cache by its keys. -/
abbrev BoundedCache (κ ν : Type) := Dict κ (Stamped ν)

/-- An order in which a map happens to be walked. -/
structure Walk (ρ : Type) where
  walk : List ρ → List ρ
  permutes : ∀ rows, (walk rows).Perm rows

namespace BoundedCache

variable {κ ν : Type} [DecidableEq κ]

/-- The key that was stored first, and of several the one that is walked first. -/
def oldestKey (order : Walk (κ × Stamped ν)) (cache : BoundedCache κ ν) : Option κ :=
  ((order.walk cache.rows).argmin fun row => row.2.storedAt).map Prod.fst

/-- The cache with room for a key. -/
def withRoom (limit : Nat) (order : Walk (κ × Stamped ν)) (key : κ) (cache : BoundedCache κ ν) : BoundedCache κ ν :=
  if limit ≤ cache.rows.length ∧ cache.get? key = none then
    match oldestKey order cache with
    | some oldest => cache.erase oldest
    | none => cache
  else cache

/-- Store a value, for which the oldest entry gives way where there is no room. -/
def remember (limit : Nat) (order : Walk (κ × Stamped ν)) (now : Nat) (key : κ) (value : ν)
    (cache : BoundedCache κ ν) : BoundedCache κ ν :=
  (withRoom limit order key cache).set key ⟨now, value⟩

/-- The cache without what is held under a key, if that is past its time. -/
def dropExpired (ttl now : Nat) (key : κ) (cache : BoundedCache κ ν) : BoundedCache κ ν :=
  match cache.get? key with
  | some entry => if now - entry.storedAt > ttl then cache.erase key else cache
  | none => cache

/-- What is held under a key and not older than so. -/
def lookup (ttl now : Nat) (key : κ) (cache : BoundedCache κ ν) : Option ν :=
  ((cache.get? key).filter fun entry => now - entry.storedAt ≤ ttl).map Stamped.value

/-! ## What was stored -/

/-- A value that was stored: when, and under which key. -/
structure Stored (κ ν : Type) where
  now : Nat
  key : κ
  value : ν
deriving DecidableEq, Repr

/-- The last that was stored under a key. -/
def lastStored (key : κ) (history : List (Stored κ ν)) : Option (Stored κ ν) :=
  (history.filter fun stored => stored.key = key).getLast?

/-- The other keys that something was stored under from a time on. -/
def othersSince (key : κ) (since : Nat) (history : List (Stored κ ν)) : Finset κ :=
  ((history.filter fun stored => since ≤ stored.now ∧ stored.key ≠ key).map Stored.key).toFinset

/-- What a history of stores leaves in a cache by now: at most so many entries, under each key what was stored
last. What is in time is held if it is newer than an entry, and was followed by so many others if it is gone. -/
structure Keeps (limit ttl now : Nat) (history : List (Stored κ ν)) (cache : BoundedCache κ ν) : Prop where
  ordered : history.Pairwise fun first second => first.now ≤ second.now
  past : ∀ stored ∈ history, stored.now ≤ now
  bounded : cache.rows.length ≤ limit
  latest : ∀ key entry, cache.get? key = some entry →
    lastStored key history = some ⟨entry.storedAt, key, entry.value⟩
  newer : ∀ key entry, cache.get? key = some entry → ∀ other stored, lastStored other history = some stored →
    entry.storedAt < stored.now → now - stored.now ≤ ttl → (cache.get? other).isSome
  crowded : ∀ key stored, lastStored key history = some stored → cache.get? key = none →
    now - stored.now ≤ ttl → limit ≤ (othersSince key stored.now history).card

/-- A key that is in time is gone only when so many others were stored after it. -/
def Favours (limit ttl now : Nat) (key : κ) (history : List (Stored κ ν)) (cache : BoundedCache κ ν) : Prop :=
  ∀ stored, lastStored key history = some stored → cache.get? key = none → now - stored.now ≤ ttl →
    limit ≤ (othersSince key (stored.now + 1) history).card

/-- The order in which a key is walked last. -/
def favouring (key : κ) : Walk (κ × Stamped ν) where
  walk rows := rows.filter (fun row => row.1 ≠ key) ++ rows.filter fun row => row.1 = key
  permutes rows := by
    simpa using (List.filter_append_perm (fun row => decide (row.1 ≠ key)) rows)

theorem lastStored_append (key : κ) (history : List (Stored κ ν)) (stored : Stored κ ν) :
    lastStored key (history ++ [stored]) = if stored.key = key then some stored else lastStored key history := by
  rw [lastStored, List.filter_append]
  by_cases same : stored.key = key
  · rw [if_pos same, List.filter_singleton, decide_eq_true same]
    exact List.getLast?_concat
  · rw [if_neg same, List.filter_singleton, decide_eq_false same]
    exact congrArg List.getLast? (List.append_nil _)

theorem othersSince_mono {key : κ} {since : Nat} {history : List (Stored κ ν)} (stored : Stored κ ν) :
    othersSince key since history ⊆ othersSince key since (history ++ [stored]) := by
  intro other mem
  simp only [othersSince, List.mem_toFinset, List.mem_map, List.mem_filter] at mem ⊢
  obtain ⟨earlier, ⟨inHistory, kind⟩, isKey⟩ := mem
  exact ⟨earlier, ⟨List.mem_append_left _ inHistory, kind⟩, isKey⟩

theorem lastStored_mem {key : κ} {history : List (Stored κ ν)} {stored : Stored κ ν}
    (isLast : lastStored key history = some stored) : stored ∈ history ∧ stored.key = key := by
  have mem := List.mem_filter.mp (List.mem_of_getLast? isLast)
  exact ⟨mem.1, of_decide_eq_true mem.2⟩

/-- What is stored under a key was stored last or before that. -/
theorem exists_lastStored {history : List (Stored κ ν)}
    (ordered : history.Pairwise fun first second => first.now ≤ second.now) {earlier : Stored κ ν}
    (mem : earlier ∈ history) :
    ∃ stored, lastStored earlier.key history = some stored ∧ earlier.now ≤ stored.now := by
  induction history using List.reverseRecOn with
  | nil => cases mem
  | append_singleton history last ih =>
    obtain ⟨before, -, after⟩ := List.pairwise_append.mp ordered
    rw [lastStored_append]
    by_cases same : last.key = earlier.key
    · rw [if_pos same]
      refine ⟨last, rfl, ?_⟩
      rcases List.mem_append.mp mem with inHistory | isLast
      · exact after earlier inHistory last (List.mem_singleton_self _)
      · rw [List.mem_singleton.mp isLast]
    · rw [if_neg same]
      rcases List.mem_append.mp mem with inHistory | isLast
      · exact ih before inHistory
      · exact absurd (congrArg Stored.key (List.mem_singleton.mp isLast)).symm same

theorem keeps_nil (limit ttl now : Nat) :
    Keeps limit ttl now ([] : List (Stored κ ν)) (Table.empty : BoundedCache κ ν) where
  ordered := .nil
  past := nofun
  bounded := Nat.zero_le limit
  latest := nofun
  newer := nofun
  crowded := nofun

/-- The entry that gives way was stored no later than any other. -/
theorem oldestKey_spec {order : Walk (κ × Stamped ν)} {cache : BoundedCache κ ν} {oldest : κ}
    (isOldest : oldestKey order cache = some oldest) : ∃ entry, cache.get? oldest = some entry ∧
      ∀ key other, cache.get? key = some other → entry.storedAt ≤ other.storedAt := by
  obtain ⟨row, isMin, rfl⟩ := Option.map_eq_some_iff.mp isOldest
  have inRows : row ∈ cache.rows := (order.permutes cache.rows).mem_iff.mp (List.argmin_mem isMin)
  refine ⟨row.2, Dict.mem_rows_iff.mp inRows, fun key other held => ?_⟩
  have otherRow : (key, other) ∈ order.walk cache.rows :=
    (order.permutes cache.rows).mem_iff.mpr (Dict.mem_rows_iff.mpr held)
  exact List.le_of_mem_argmin (f := fun row : κ × Stamped ν => row.2.storedAt) otherRow isMin

omit [DecidableEq κ] in
theorem oldestKey_isSome {order : Walk (κ × Stamped ν)} {cache : BoundedCache κ ν} (notEmpty : cache.rows ≠ []) :
    ∃ oldest, oldestKey order cache = some oldest := by
  cases isMin : (order.walk cache.rows).argmin fun row => row.2.storedAt with
  | none =>
    have isEmpty := List.argmin_eq_none.mp isMin
    have same := (order.permutes cache.rows).length_eq
    rw [isEmpty] at same
    exact absurd (List.length_eq_zero_iff.mp same.symm) notEmpty
  | some row => exact ⟨row.1, by rw [oldestKey, isMin]; rfl⟩

/-- A key that is walked last gives way only to later ones. -/
theorem oldestKey_favouring {cache : BoundedCache κ ν} {key : κ} {entry : Stamped ν}
    (isOldest : oldestKey (favouring key) cache = some key) (held : cache.get? key = some entry) :
    ∀ other later, other ≠ key → cache.get? other = some later → entry.storedAt < later.storedAt := by
  intro other later different isHeld
  let decidable : DecidableEq (κ × Stamped ν) := Classical.decEq _
  let equality : BEq (κ × Stamped ν) := instBEqOfDecidableEq
  obtain ⟨first, isMin, isKey⟩ := Option.map_eq_some_iff.mp isOldest
  have inWalk := List.argmin_mem isMin
  have isFirst : first = (key, entry) := by
    have inRows := Dict.mem_rows_iff.mp (((favouring key).permutes cache.rows).mem_iff.mp inWalk)
    rw [isKey, held] at inRows
    exact Prod.ext isKey (Option.some.inj inRows).symm
  subst isFirst
  have inOthers : (other, later) ∈ cache.rows.filter fun row => row.1 ≠ key :=
    List.mem_filter.mpr ⟨Dict.mem_rows_iff.mpr isHeld, decide_eq_true different⟩
  have notInOthers : (key, entry) ∉ cache.rows.filter fun row => row.1 ≠ key := fun mem =>
    of_decide_eq_true (List.mem_filter.mp mem).2 rfl
  by_contra notLater
  have before := List.index_of_argmin isMin (List.mem_append_left _ inOthers) (Nat.le_of_not_lt notLater)
  dsimp only [favouring] at before
  rw [List.idxOf_append_of_mem inOthers, List.idxOf_append_of_notMem notInOthers] at before
  exact absurd (List.idxOf_lt_length_of_mem inOthers) (by omega)

section Remember

variable {limit ttl now : Nat} {order : Walk (κ × Stamped ν)} {key : κ} {value : ν} {history : List (Stored κ ν)}
  {cache : BoundedCache κ ν}

/-- What gives way to a new key, and when. -/
theorem withRoom_cases (room : 0 < limit) :
    (withRoom limit order key cache = cache ∧ (cache.rows.length < limit ∨ (cache.get? key).isSome)) ∨
      ∃ oldest entry, withRoom limit order key cache = cache.erase oldest ∧ limit ≤ cache.rows.length ∧
        cache.get? key = none ∧ oldestKey order cache = some oldest ∧ cache.get? oldest = some entry ∧
        ∀ other held, cache.get? other = some held → entry.storedAt ≤ held.storedAt := by
  rw [withRoom]
  split
  next full =>
    have notEmpty : cache.rows ≠ [] := List.length_pos_iff.mp (room.trans_le full.1)
    obtain ⟨oldest, isOldest⟩ := @oldestKey_isSome _ _ order _ notEmpty
    obtain ⟨entry, isEntry, least⟩ := oldestKey_spec isOldest
    rw [isOldest]
    exact .inr ⟨oldest, entry, rfl, full.1, full.2, rfl, isEntry, least⟩
  next hasRoom =>
    refine .inl ⟨rfl, ?_⟩
    by_cases full : limit ≤ cache.rows.length
    · exact .inr (Option.isSome_iff_ne_none.mpr fun absent => hasRoom ⟨full, absent⟩)
    · exact .inl (Nat.lt_of_not_le full)

theorem get?_withRoom {other : κ} {entry : Stamped ν} (room : 0 < limit)
    (held : (withRoom limit order key cache).get? other = some entry) : cache.get? other = some entry := by
  obtain ⟨same, -⟩ | ⟨oldest, _, erased, -⟩ := @withRoom_cases _ _ _ limit order key cache room
  · rwa [same] at held
  · rw [erased, Dict.get?_erase] at held
    split at held
    · cases held
    · exact held

theorem length_set (entry : Stamped ν) :
    (cache.set key entry).rows.length = if (cache.get? key).isSome then cache.rows.length else cache.rows.length + 1 := by
  cases held : cache.get? key with
  | none =>
    rw [Dict.rows_set_of_absent held]
    simp
  | some old =>
    have set := (Dict.rows_set_perm cache key entry).length_eq
    have erased := (Dict.rows_perm_cons_erase held).length_eq
    rw [set]
    simpa using erased.symm

theorem bounded_remember (room : 0 < limit) (bounded : cache.rows.length ≤ limit) :
    (remember limit order now key value cache).rows.length ≤ limit := by
  rw [remember, length_set]
  obtain ⟨same, hasRoom⟩ | ⟨oldest, entry, erased, full, absent, -, isEntry, -⟩ :=
    @withRoom_cases _ _ _ limit order key cache room
  · rw [same]
    split
    · exact bounded
    next absent => exact hasRoom.resolve_right absent
  · have shorter := (Dict.rows_perm_cons_erase isEntry).length_eq
    rw [List.length_cons] at shorter
    rw [erased, Dict.get?_erase, absent, ite_self]
    simp only [Option.isSome_none, Bool.false_eq_true, if_false]
    omega

theorem card_keys (cache : BoundedCache κ ν) : cache.keys.toFinset.card = cache.rows.length := by
  rw [Dict.keys, List.toFinset_card_of_nodup cache.distinct, List.length_map]

/-- What gave way to a new key was the oldest of a full cache. -/
theorem evicted_of_gone (room : 0 < limit) {other : κ} {entry : Stamped ν} (held : cache.get? other = some entry)
    (gone : (withRoom limit order key cache).get? other = none) :
    limit ≤ cache.rows.length ∧ cache.get? key = none ∧ oldestKey order cache = some other ∧
      ∀ another later, cache.get? another = some later → entry.storedAt ≤ later.storedAt := by
  obtain ⟨same, -⟩ | ⟨oldest, old, erased, full, absent, isOldest, isOld, least⟩ :=
    @withRoom_cases _ _ _ limit order key cache room
  · rw [same, held] at gone
    cases gone
  · rw [erased, Dict.get?_erase] at gone
    split at gone
    next same =>
      subst same
      rw [held] at isOld
      obtain rfl := Option.some.inj isOld
      exact ⟨full, absent, isOldest, least⟩
    next =>
      rw [held] at gone
      cases gone

/-- The keys that are held besides one were all stored since, and so was the new one. -/
theorem crowded_of_full {since : Nat} (latest : ∀ key entry, cache.get? key = some entry →
      lastStored key history = some ⟨entry.storedAt, key, entry.value⟩)
    (full : limit ≤ cache.rows.length) (absent : cache.get? key = none) {oldest : κ} {entry : Stamped ν}
    (isEntry : cache.get? oldest = some entry) (isNow : since ≤ now)
    (least : ∀ other held, other ≠ oldest → cache.get? other = some held → since ≤ held.storedAt) :
    limit ≤ (othersSince oldest since (history ++ [⟨now, key, value⟩])).card := by
  have others : insert key (cache.keys.toFinset.erase oldest) ⊆
      othersSince oldest since (history ++ [⟨now, key, value⟩]) := by
    intro other mem
    simp only [othersSince, List.mem_toFinset, List.mem_map, List.mem_filter, decide_eq_true_eq]
    rcases Finset.mem_insert.mp mem with rfl | earlier
    · refine ⟨⟨now, other, value⟩, ⟨List.mem_append_right _ (List.mem_singleton_self _), isNow, ?_⟩, rfl⟩
      rintro rfl
      rw [absent] at isEntry
      cases isEntry
    · obtain ⟨different, isKey⟩ := Finset.mem_erase.mp earlier
      obtain ⟨held, isHeld⟩ := Option.isSome_iff_exists.mp (Dict.mem_keys_iff.mp (List.mem_toFinset.mp isKey))
      exact ⟨⟨held.storedAt, other, held.value⟩, ⟨List.mem_append_left _ (lastStored_mem (latest other held isHeld)).1,
        least other held different isHeld, different⟩, rfl⟩
  have isNew : key ∉ cache.keys.toFinset.erase oldest := fun mem => by
    have isKey := Dict.mem_keys_iff.mp (List.mem_toFinset.mp (Finset.mem_of_mem_erase mem))
    rw [absent] at isKey
    cases isKey
  have isOld : oldest ∈ cache.keys.toFinset :=
    List.mem_toFinset.mpr (Dict.mem_keys_iff.mpr (Option.isSome_iff_exists.mpr ⟨entry, isEntry⟩))
  have positive : 0 < cache.keys.toFinset.card := Finset.card_pos.mpr ⟨oldest, isOld⟩
  have size := Finset.card_le_card others
  rw [Finset.card_insert_of_notMem isNew, Finset.card_erase_of_mem isOld] at size
  rw [card_keys] at size positive
  omega

/-- The passing of time keeps what is kept. -/
theorem Keeps.later (keeps : Keeps limit ttl now history cache) {later : Nat} (after : now ≤ later) :
    Keeps limit ttl later history cache :=
  { keeps with
    past := fun stored mem => (keeps.past stored mem).trans after
    newer := fun key entry held other stored isLast isNewer recent =>
      keeps.newer key entry held other stored isLast isNewer (by omega)
    crowded := fun key stored isLast gone recent => keeps.crowded key stored isLast gone (by omega) }

/-- A store keeps what is kept. -/
theorem Keeps.remember (keeps : Keeps limit ttl now history cache) (room : 0 < limit)
    (order : Walk (κ × Stamped ν)) (key : κ) (value : ν) :
    Keeps limit ttl now (history ++ [⟨now, key, value⟩]) (remember limit order now key value cache) where
  ordered := List.pairwise_append.mpr ⟨keeps.ordered, List.pairwise_singleton _ _, fun earlier mem last isLast => by
    rw [List.mem_singleton.mp isLast]
    exact keeps.past earlier mem⟩
  past := List.forall_mem_append.mpr ⟨keeps.past, List.forall_mem_singleton.mpr (Nat.le_refl now)⟩
  bounded := bounded_remember room keeps.bounded
  latest other entry held := by
    rw [BoundedCache.remember, Dict.get?_set] at held
    rw [lastStored_append]
    split at held
    next same =>
      obtain rfl := Option.some.inj held
      rw [if_pos same.symm, same]
    next different =>
      rw [if_neg fun same => different same.symm]
      exact keeps.latest other entry (get?_withRoom room held)
  newer one entry held other stored isLast isNewer recent := by
    rw [BoundedCache.remember, Dict.get?_set] at held ⊢
    rw [lastStored_append] at isLast
    split
    next => rfl
    next different =>
      rw [if_neg fun same => different same.symm] at isLast
      split at held
      next =>
        obtain rfl := Option.some.inj held
        exact absurd (keeps.past stored (lastStored_mem isLast).1) (Nat.not_le_of_lt isNewer)
      next =>
        have wasHeld := get?_withRoom room held
        have isHeld := keeps.newer one entry wasHeld other stored isLast isNewer recent
        obtain ⟨same, -⟩ | ⟨oldest, old, erased, -, -, -, isOld, least⟩ :=
          @withRoom_cases _ _ _ limit order key cache room
        · rwa [same]
        · rw [erased, Dict.get?_erase]
          split
          next isOldest =>
            subst isOldest
            have stampedAt := (keeps.latest other old isOld).symm.trans isLast
            obtain rfl := Option.some.inj stampedAt
            exact absurd (least one entry wasHeld) (Nat.not_le_of_lt isNewer)
          next => exact isHeld
  crowded other stored isLast gone recent := by
    rw [BoundedCache.remember, Dict.get?_set] at gone
    split at gone
    next => cases gone
    next different =>
      rw [lastStored_append, if_neg fun same => different same.symm] at isLast
      cases held : cache.get? other with
      | none =>
        exact (keeps.crowded other stored isLast held recent).trans (Finset.card_le_card (othersSince_mono _))
      | some entry =>
        obtain ⟨full, absent, isOldest, least⟩ := evicted_of_gone room held gone
        have stampedAt := (keeps.latest other entry held).symm.trans isLast
        obtain rfl := Option.some.inj stampedAt
        exact crowded_of_full keeps.latest full absent held (keeps.past _ (lastStored_mem isLast).1)
          fun other' later _ isHeld => least other' later isHeld

/-- What is in time is not dropped. -/
theorem Keeps.get?_dropExpired (keeps : Keeps limit ttl now history cache) {other : κ} {stored : Stored κ ν}
    (isLast : lastStored other history = some stored) (recent : now - stored.now ≤ ttl) :
    (cache.dropExpired ttl now key).get? other = cache.get? other := by
  rw [BoundedCache.dropExpired]
  split
  next entry held =>
    split
    next expired =>
      rw [Dict.get?_erase]
      split
      next same =>
        subst same
        have stampedAt := (keeps.latest other entry held).symm.trans isLast
        obtain rfl := Option.some.inj stampedAt
        exact absurd recent (Nat.not_le_of_lt expired)
      next => rfl
    next => rfl
  next => rfl

/-- What is left was there before. -/
theorem get?_of_dropExpired {other : κ} {entry : Stamped ν}
    (held : (cache.dropExpired ttl now key).get? other = some entry) : cache.get? other = some entry := by
  rw [BoundedCache.dropExpired] at held
  split at held
  · split at held
    · rw [Dict.get?_erase] at held
      split at held
      · cases held
      · exact held
    · exact held
  · exact held

/-- Dropping an entry past its time keeps what is kept. -/
theorem Keeps.dropExpired (keeps : Keeps limit ttl now history cache) (key : κ) :
    Keeps limit ttl now history (cache.dropExpired ttl now key) :=
  { keeps with
    bounded := by
      refine le_trans ?_ keeps.bounded
      rw [BoundedCache.dropExpired]
      split
      next entry held =>
        split
        · have shorter := (Dict.rows_perm_cons_erase held).length_eq
          rw [List.length_cons] at shorter
          omega
        · exact Nat.le_refl _
      next => exact Nat.le_refl _
    latest := fun other entry held => keeps.latest other entry (get?_of_dropExpired held)
    newer := fun one entry held other stored isLast isNewer recent => by
      rw [keeps.get?_dropExpired isLast recent]
      exact keeps.newer one entry (get?_of_dropExpired held) other stored isLast isNewer recent
    crowded := fun other stored isLast gone recent => by
      rw [keeps.get?_dropExpired isLast recent] at gone
      exact keeps.crowded other stored isLast gone recent }

/-- What is held in time was followed by fewer others than the cache holds. -/
theorem Keeps.few_of_held (keeps : Keeps limit ttl now history cache) {entry : Stamped ν}
    (held : cache.get? key = some entry) (recent : now - entry.storedAt ≤ ttl) :
    (othersSince key (entry.storedAt + 1) history).card < limit := by
  have others : othersSince key (entry.storedAt + 1) history ⊆ cache.keys.toFinset.erase key := by
    intro other mem
    simp only [othersSince, List.mem_toFinset, List.mem_map, List.mem_filter, decide_eq_true_eq] at mem
    obtain ⟨earlier, ⟨inHistory, since, different⟩, rfl⟩ := mem
    obtain ⟨stored, isLast, after⟩ := exists_lastStored keeps.ordered inHistory
    refine Finset.mem_erase.mpr ⟨different, List.mem_toFinset.mpr (Dict.mem_keys_iff.mpr ?_)⟩
    exact keeps.newer key entry held earlier.key stored isLast (Nat.lt_of_lt_of_le since after) (by omega)
  have isKey : key ∈ cache.keys.toFinset :=
    List.mem_toFinset.mpr (Dict.mem_keys_iff.mpr (Option.isSome_iff_exists.mpr ⟨entry, held⟩))
  have size := Finset.card_le_card others
  have positive : 0 < cache.keys.toFinset.card := Finset.card_pos.mpr ⟨key, isKey⟩
  rw [Finset.card_erase_of_mem isKey] at size
  rw [card_keys] at size positive
  have bounded := keeps.bounded
  omega

/-! ## The order that favours a key -/

theorem Favours.later (favours : Favours limit ttl now key history cache) {later : Nat} (after : now ≤ later) :
    Favours limit ttl later key history cache := fun stored isLast gone recent =>
  favours stored isLast gone (by omega)

/-- A store whose walk ends at a key keeps what favours the key. -/
theorem Favours.remember {kept : κ} (favours : Favours limit ttl now kept history cache)
    (keeps : Keeps limit ttl now history cache) (room : 2 ≤ limit) (key : κ) (value : ν) :
    Favours limit ttl now kept (history ++ [⟨now, key, value⟩])
      (remember limit (favouring kept) now key value cache) := by
  intro stored isLast gone recent
  rw [BoundedCache.remember, Dict.get?_set] at gone
  split at gone
  next => cases gone
  next different =>
    rw [lastStored_append, if_neg fun same => different same.symm] at isLast
    cases held : cache.get? kept with
    | none => exact (favours stored isLast held recent).trans (Finset.card_le_card (othersSince_mono _))
    | some entry =>
      have someRoom : 0 < limit := Nat.lt_of_lt_of_le Nat.zero_lt_two room
      obtain ⟨full, absent, isOldest, -⟩ := evicted_of_gone someRoom held gone
      have first := oldestKey_favouring isOldest held
      have stampedAt := (keeps.latest kept entry held).symm.trans isLast
      obtain rfl := Option.some.inj stampedAt
      refine crowded_of_full keeps.latest full absent held ?_ first
      -- Of two entries one is another key's, which was stored after this one and before now.
      have another : 1 < cache.keys.toFinset.card := by
        rw [card_keys]
        omega
      obtain ⟨other, isOther, notKept⟩ := Finset.exists_mem_ne another kept
      obtain ⟨later, isLater⟩ := Option.isSome_iff_exists.mp (Dict.mem_keys_iff.mp (List.mem_toFinset.mp isOther))
      exact Nat.succ_le_of_lt ((first other later notKept isLater).trans_le
        (keeps.past _ (lastStored_mem (keeps.latest other later isLater)).1))

theorem Favours.dropExpired {kept : κ} (favours : Favours limit ttl now kept history cache)
    (keeps : Keeps limit ttl now history cache) (key : κ) :
    Favours limit ttl now kept history (cache.dropExpired ttl now key) := by
  intro stored isLast gone recent
  rw [keeps.get?_dropExpired isLast recent] at gone
  exact favours stored isLast gone recent

end Remember

end BoundedCache

end TutaBridge.Std
