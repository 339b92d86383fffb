import Mathlib.Data.List.MinMax
import TutaBridge.Std.Table
import TutaBridge.Tuta.Entities

/-!
# The bounded body cache

Rendered bodies live here, at most `maxBytes` of them, with the least recently
used evicted first. `entries` maps an element id to its body and last-use tick,
`order` a tick to its element id. Nothing but an eviction ever removes a body.
-/

namespace TutaBridge.Store

open TutaBridge.Std Tuta

variable {cache : BodyCache}

/-- A rendered message and, when it came fresh from the server, its details. -/
structure BodyEntry where
  details : Option MailDetails
  rfc2822 : String
deriving DecidableEq, Repr

/-- `entry.rfc2822.len()`. -/
def BodyEntry.size (entry : BodyEntry) : Nat := entry.rfc2822.utf8ByteSize

/-- The locked state with its budget. `diskFallback` is whether
`set_local_store` was called. -/
structure BodyCache where
  entries : Dict String (BodyEntry × Nat)
  order : Dict Nat String
  totalBytes : Nat
  tick : Nat
  maxBytes : Nat
  diskFallback : Bool
deriving DecidableEq

namespace BodyCache

/-- `MAX_CACHE_BYTES`. -/
def maxCacheBytes : Nat := 256 * 1024 * 1024

def withCapacity (maxBytes : Nat) : BodyCache := ⟨.empty, .empty, 0, 0, maxBytes, false⟩

/-- The entry of `order` with the lowest tick. -/
def coldest (cache : BodyCache) : Option (Nat × String) := cache.order.rows.argmin Prod.fst

/-- The eviction loop of `insert`, which never evicts the tick just inserted.
Every round takes an entry out of `order`, so `fuel` bounds the rounds. -/
def evict (newest : Nat) : Nat → BodyCache → BodyCache
  | 0, cache => cache
  | fuel + 1, cache =>
    if cache.totalBytes > cache.maxBytes ∧ cache.entries.rows.length > 1 then
      match cache.coldest with
      | none => cache
      | some (coldTick, elementId) =>
        if coldTick = newest then cache
        else
          let cooled := { cache with order := cache.order.erase coldTick }
          match cache.entries.get? elementId with
          | none => evict newest fuel cooled
          | some (old, _) =>
            evict newest fuel
              { cooled with
                entries := cache.entries.erase elementId
                totalBytes := cache.totalBytes - old.size }
    else cache

/-- Insert or replace a body, then evict cold ones until the cache fits. -/
def insert (elementId : String) (entry : BodyEntry) (cache : BodyCache) : BodyCache :=
  let tick := cache.tick + 1
  let replaced : BodyCache :=
    match cache.entries.get? elementId with
    | none => cache
    | some (old, oldTick) =>
      { cache with
        order := cache.order.erase oldTick
        totalBytes := cache.totalBytes - old.size }
  let inserted : BodyCache :=
    { replaced with
      entries := cache.entries.set elementId (entry, tick)
      order := replaced.order.set tick elementId
      totalBytes := replaced.totalBytes + entry.size
      tick := tick }
  evict tick inserted.order.rows.length inserted

/-- Replace the rendered message of a held body. Its details are preserved. -/
def updateRfc2822 (elementId rfc2822 : String) (cache : BodyCache) : BodyCache :=
  match cache.entries.get? elementId with
  | none => cache
  | some (entry, _) => cache.insert elementId ⟨entry.details, rfc2822⟩

/-- Lookup in memory only, which makes the entry the most recently used. -/
def cached (elementId : String) (cache : BodyCache) : Option BodyEntry × BodyCache :=
  let tick := cache.tick + 1
  match cache.entries.get? elementId with
  | none => (none, { cache with tick := tick })
  | some (entry, oldTick) =>
    (some entry,
      { cache with
        entries := cache.entries.set elementId (entry, tick)
        order := (cache.order.erase oldTick).set tick elementId
        tick := tick })

/-- Whether a body is held in memory. -/
def holds (cache : BodyCache) (elementId : String) : Prop :=
  (cache.entries.get? elementId).isSome

instance (cache : BodyCache) (elementId : String) : Decidable (cache.holds elementId) :=
  inferInstanceAs (Decidable (_ = true))

/-- The body held in memory, left where it is in the order of use. -/
def peek (cache : BodyCache) (elementId : String) : Option BodyEntry :=
  (cache.entries.get? elementId).map Prod.fst

/-- An eviction changes no entry that it leaves. -/
theorem evict_get?_imp {newest fuel : Nat} {elementId : String} {found : BodyEntry × Nat}
    (kept : (evict newest fuel cache).entries.get? elementId = some found) :
    cache.entries.get? elementId = some found := by
  induction fuel generalizing cache with
  | zero => exact kept
  | succ fuel ih =>
    unfold evict at kept
    split at kept
    · split at kept
      · exact kept
      · split at kept
        · exact kept
        · dsimp only at kept
          split at kept
          · have earlier := ih kept
            exact earlier
          · have earlier := ih kept
            simp only [Dict.get?_erase] at earlier
            split at earlier
            · simp at earlier
            · exact earlier
    · exact kept

theorem evict_holds_imp {newest fuel : Nat} {elementId : String}
    (held : (evict newest fuel cache).holds elementId) : cache.holds elementId := by
  obtain ⟨found, kept⟩ := Option.isSome_iff_exists.mp held
  exact Option.isSome_iff_exists.mpr ⟨found, evict_get?_imp kept⟩

/-- An insertion makes no other body appear, and changes none that it leaves. -/
theorem peek_insert_imp {elementId other : String} {entry found : BodyEntry}
    (held : (cache.insert elementId entry).peek other = some found) :
    (other = elementId ∧ found = entry) ∨ cache.peek other = some found := by
  obtain ⟨⟨body, used⟩, kept, rfl⟩ := Option.map_eq_some_iff.mp held
  have earlier := evict_get?_imp kept
  simp only [Dict.get?_set] at earlier
  split at earlier
  next same =>
    cases earlier
    exact .inl ⟨same, rfl⟩
  next => exact .inr (Option.map_eq_some_iff.mpr ⟨_, earlier, rfl⟩)

/-- An insertion makes no other body appear. -/
theorem insert_holds_imp {elementId other : String} {entry : BodyEntry}
    (held : (cache.insert elementId entry).holds other) : other = elementId ∨ cache.holds other := by
  have earlier := evict_holds_imp held
  simp only [holds, Dict.get?_set] at earlier
  split at earlier
  next same => exact .inl same
  next => exact .inr earlier

/-- A lookup changes which bodies are recent, not which are held. -/
@[simp] theorem cached_holds (elementId other : String) (cache : BodyCache) :
    (cache.cached elementId).2.holds other ↔ cache.holds other := by
  unfold cached
  cases found : cache.entries.get? elementId with
  | none => rfl
  | some entry =>
    simp only [holds, Dict.get?_set]
    split
    next same => simp [same, found]
    next => rfl

@[simp] theorem cached_fst (elementId : String) (cache : BodyCache) :
    (cache.cached elementId).1 = cache.peek elementId := by
  unfold cached peek
  cases cache.entries.get? elementId <;> rfl

@[simp] theorem peek_cached (elementId other : String) (cache : BodyCache) :
    (cache.cached elementId).2.peek other = cache.peek other := by
  unfold cached
  cases found : cache.entries.get? elementId with
  | none => rfl
  | some entry =>
    simp only [peek, Dict.get?_set]
    split
    next same => simp [same, found]
    next => rfl

end BodyCache

end TutaBridge.Store
