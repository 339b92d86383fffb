import TutaBridge.Store.BodyCache

/-!
# What the body cache keeps

The two maps of the cache and its running byte count agree after every run of calls,
and what is held is what was used last. `Usage` is what an observer of the calls knows.
-/

namespace TutaBridge.Store.BodyCache

open TutaBridge.Std Tuta

/-! ## Subtractions that are checked -/

/-- `total -= size`, which underflows when there is no result. -/
def debit (total size : Nat) : Option Nat := if size ≤ total then some (total - size) else none

/-- The loop `evict`, with every subtraction checked. -/
def evictChecked (newest : Nat) : Nat → BodyCache → Option BodyCache
  | 0, cache => some cache
  | fuel + 1, cache =>
    if cache.totalBytes > cache.maxBytes ∧ cache.entries.rows.length > 1 then
      match cache.coldest with
      | none => some cache
      | some (coldTick, elementId) =>
        if coldTick = newest then some cache
        else
          let cooled := { cache with order := cache.order.erase coldTick }
          match cache.entries.get? elementId with
          | none => evictChecked newest fuel cooled
          | some (old, _) =>
            (debit cache.totalBytes old.size).bind fun left =>
              evictChecked newest fuel
                { cooled with entries := cache.entries.erase elementId, totalBytes := left }
    else some cache

/-- `insert`, with every subtraction checked. -/
def insertChecked (elementId : String) (entry : BodyEntry) (cache : BodyCache) : Option BodyCache :=
  let tick := cache.tick + 1
  let replaced : Option BodyCache :=
    match cache.entries.get? elementId with
    | none => some cache
    | some (old, oldTick) =>
      (debit cache.totalBytes old.size).map fun left =>
        { cache with order := cache.order.erase oldTick, totalBytes := left }
  replaced.bind fun replaced =>
    let inserted : BodyCache :=
      { replaced with
        entries := cache.entries.set elementId (entry, tick)
        order := replaced.order.set tick elementId
        totalBytes := replaced.totalBytes + entry.size
        tick := tick }
    evictChecked tick inserted.order.rows.length inserted

/-! ## The calls and what they tell -/

/-- A call of the cache. -/
inductive Call where
  | insert (elementId : String) (entry : BodyEntry)
  | updateRfc2822 (elementId rfc2822 : String)
  | cached (elementId : String)
deriving DecidableEq, Repr

def call (cache : BodyCache) : Call → BodyCache
  | .insert elementId entry => cache.insert elementId entry
  | .updateRfc2822 elementId rfc2822 => cache.updateRfc2822 elementId rfc2822
  | .cached elementId => (cache.cached elementId).2

/-- `call`, with every subtraction checked. -/
def callChecked (cache : BodyCache) : Call → Option BodyCache
  | .insert elementId entry => cache.insertChecked elementId entry
  | .updateRfc2822 elementId rfc2822 =>
    match cache.entries.get? elementId with
    | none => some cache
    | some (entry, _) => cache.insertChecked elementId ⟨entry.details, rfc2822⟩
  | .cached elementId => some (cache.cached elementId).2

/-- What the calls so far used: the element ids in the order of their last insertion or
hit, oldest first, and the body inserted last under each. -/
structure Usage where
  recency : List String
  last : String → Option BodyEntry

namespace Usage

def none : Usage := ⟨[], fun _ => .none⟩

/-- An element id becomes the one used last. -/
def touch (recency : List String) (elementId : String) : List String :=
  (recency.filter fun other => other ≠ elementId) ++ [elementId]

def insert (usage : Usage) (elementId : String) (entry : BodyEntry) : Usage :=
  ⟨touch usage.recency elementId, Function.update usage.last elementId (some entry)⟩

/-- What a call adds, where `cache` is the cache it finds. -/
def call (cache : BodyCache) (usage : Usage) : Call → Usage
  | .insert elementId entry => usage.insert elementId entry
  | .updateRfc2822 elementId rfc2822 =>
    match cache.peek elementId with
    | .none => usage
    | some held => usage.insert elementId ⟨held.details, rfc2822⟩
  | .cached elementId =>
    if cache.holds elementId then { usage with recency := touch usage.recency elementId } else usage

end Usage

/-- The cache and the usage after a run of calls. -/
def run (maxBytes : Nat) (calls : List Call) : BodyCache × Usage :=
  calls.foldl (fun state next => (state.1.call next, state.2.call state.1 next))
    (withCapacity maxBytes, .none)

/-! ## The accounts -/

/-- The two maps describe one set of slots, in which later rows of `order` are later in
use, and the byte count is what the bodies weigh. -/
structure Accounts (recency : List String) (cache : BodyCache) : Prop where
  agree : ∀ tick elementId, cache.order.get? tick = some elementId ↔
    ∃ entry, cache.entries.get? elementId = some (entry, tick)
  sorted : cache.order.rows.Pairwise fun left right => left.1 < right.1
  ticked : ∀ row ∈ cache.order.rows, row.1 ≤ cache.tick
  warm : cache.order.rows.map Prod.snd <:+ recency
  total : cache.totalBytes = cache.entries.weight fun slot => slot.1.size

/-- The order of use without one element id. -/
def lifted (elementId : String) (cache : BodyCache) : Dict Nat String :=
  match cache.entries.get? elementId with
  | none => cache.order
  | some (_, oldTick) => cache.order.erase oldTick

/-- The slot of an element id, used last of all. -/
def placed (elementId : String) (entry : BodyEntry) (cache : BodyCache) : BodyCache :=
  { cache with
    entries := cache.entries.set elementId (entry, cache.tick + 1)
    order := (cache.lifted elementId).set (cache.tick + 1) elementId
    totalBytes := entry.size + (cache.entries.erase elementId).weight fun slot => slot.1.size
    tick := cache.tick + 1 }

/-- The cache without its coldest slot. -/
def cooled (coldTick : Nat) (elementId : String) (old : BodyEntry) (cache : BodyCache) : BodyCache :=
  { cache with
    order := cache.order.erase coldTick
    entries := cache.entries.erase elementId
    totalBytes := cache.totalBytes - old.size }

namespace Accounts

variable {recency : List String} {cache : BodyCache} {elementId : String}

theorem withCapacity (maxBytes : Nat) : Accounts [] (BodyCache.withCapacity maxBytes) where
  agree _ _ := by simp [BodyCache.withCapacity]
  sorted := .nil
  ticked _ mem := absurd mem List.not_mem_nil
  warm := List.suffix_rfl
  total := rfl

section

variable (accounts : Accounts recency cache)

include accounts

theorem mem_order {tick : Nat} : (tick, elementId) ∈ cache.order.rows ↔
      ∃ entry, cache.entries.get? elementId = some (entry, tick) :=
  Dict.mem_rows_iff.trans (accounts.agree tick elementId)

/-- What is held is what has a place in the order of use. -/
theorem mem_warm_iff : elementId ∈ cache.order.rows.map Prod.snd ↔ cache.holds elementId := by
  rw [holds, Option.isSome_iff_exists]
  constructor
  · intro mem
    obtain ⟨⟨tick, found⟩, inRows, rfl⟩ := List.mem_map.mp mem
    obtain ⟨entry, held⟩ := accounts.mem_order.mp inRows
    exact ⟨_, held⟩
  · rintro ⟨⟨entry, tick⟩, held⟩
    exact List.mem_map.mpr ⟨(tick, elementId), accounts.mem_order.mpr ⟨entry, held⟩, rfl⟩

/-- Bringing an element id out of the order of use takes its row and no other. -/
theorem rows_lifted :
    (cache.lifted elementId).rows = cache.order.rows.filter fun row => row.2 ≠ elementId := by
  unfold lifted
  cases found : cache.entries.get? elementId with
  | none =>
    refine (List.filter_eq_self.mpr fun row mem => ?_).symm
    have held : cache.holds row.2 := accounts.mem_warm_iff.mp (List.mem_map_of_mem mem)
    have different : row.2 ≠ elementId := by
      intro same
      rw [same, holds, found] at held
      exact absurd held (by decide)
    simpa using different
  | some slot =>
    obtain ⟨entry, oldTick⟩ := slot
    refine List.filter_congr fun row mem => ?_
    obtain ⟨other, held⟩ := accounts.mem_order.mp mem
    have sameRow : row.1 = oldTick ↔ row.2 = elementId := by
      constructor
      · intro same
        have owner := (accounts.agree oldTick elementId).mpr ⟨entry, found⟩
        have owner' := (accounts.agree row.1 row.2).mpr ⟨other, held⟩
        rw [same, owner] at owner'
        exact (Option.some.inj owner').symm
      · intro same
        rw [same, found] at held
        exact ((Prod.mk.inj (Option.some.inj held)).2).symm
    simp [sameRow]

theorem get?_order_fresh : (cache.lifted elementId).get? (cache.tick + 1) = none := by
  rw [Option.eq_none_iff_forall_ne_some]
  intro other present
  have mem := Dict.mem_rows_iff.mpr present
  rw [accounts.rows_lifted] at mem
  have := accounts.ticked _ (List.mem_of_mem_filter mem)
  omega

theorem rows_placed (entry : BodyEntry) : (cache.placed elementId entry).order.rows =
      (cache.order.rows.filter fun row => row.2 ≠ elementId) ++ [(cache.tick + 1, elementId)] := by
  show ((cache.lifted elementId).set (cache.tick + 1) elementId).rows = _
  rw [Dict.rows_set_of_absent accounts.get?_order_fresh, accounts.rows_lifted]

/-- Using an element id last keeps the accounts. -/
theorem placed (entry : BodyEntry) :
    Accounts (Usage.touch recency elementId) (cache.placed elementId entry) where
  agree tick other := by
    rw [← Dict.mem_rows_iff, accounts.rows_placed, List.mem_append, List.mem_filter,
      List.mem_singleton, accounts.mem_order]
    simp only [BodyCache.placed, Dict.get?_set]
    by_cases same : other = elementId
    · subst same
      simp [eq_comm]
    · simp [same]
  sorted := by
    rw [accounts.rows_placed, List.pairwise_append]
    refine ⟨accounts.sorted.filter _, List.pairwise_singleton _ _, fun row mem last isLast => ?_⟩
    have := accounts.ticked row (List.mem_of_mem_filter mem)
    rw [List.mem_singleton.mp isLast]
    exact Nat.lt_succ_of_le this
  ticked row mem := by
    rw [accounts.rows_placed] at mem
    rcases List.mem_append.mp mem with earlier | last
    · exact Nat.le_succ_of_le (accounts.ticked row (List.mem_of_mem_filter earlier))
    · rw [List.mem_singleton.mp last]
      exact Nat.le_refl _
  warm := by
    obtain ⟨cold, split⟩ := accounts.warm
    refine ⟨cold.filter fun other => other ≠ elementId, ?_⟩
    rw [accounts.rows_placed, List.map_append, Usage.touch, ← split, List.filter_append,
      List.append_assoc, List.filter_map]
    rfl
  total := (Dict.weight_set (fun slot => slot.1.size) cache.entries elementId (entry, cache.tick + 1)).symm

end

/-! ## Evictions -/

/-- The row of `order` that was put there first is the coldest. -/
theorem coldest_eq (accounts : Accounts recency cache) {row : Nat × String}
    {rest : List (Nat × String)} (rows : cache.order.rows = row :: rest) : cache.coldest = some row := by
  have sorted := accounts.sorted
  rw [rows, List.pairwise_cons] at sorted
  rw [coldest, rows, List.argmin_cons]
  cases colder : rest.argmin Prod.fst with
  | none => rfl
  | some other =>
    have later := sorted.1 other (List.argmin_mem colder)
    exact if_neg (Nat.not_lt.mpr (Nat.le_of_lt later))

/-- A cache whose order of use has one row holds one body. -/
theorem length_entries (accounts : Accounts recency cache) {tick : Nat}
    (rows : cache.order.rows = [(tick, elementId)]) : cache.entries.rows.length = 1 := by
  have single : ∀ key ∈ cache.entries.keys, key = elementId := by
    intro key mem
    have warm := accounts.mem_warm_iff.mpr (Dict.mem_keys_iff.mp mem)
    rw [rows] at warm
    simpa using warm
  have present : elementId ∈ cache.entries.keys := by
    refine Dict.mem_keys_iff.mpr (accounts.mem_warm_iff.mp ?_)
    rw [rows]
    exact List.mem_singleton_self _
  have keys : cache.entries.keys = [elementId] :=
    List.perm_singleton.mp ((List.perm_ext_iff_of_nodup cache.entries.distinct
      (List.nodup_singleton _)).mpr fun key =>
        ⟨fun mem => List.mem_singleton.mpr (single key mem), fun mem => by
          rw [List.mem_singleton.mp mem]
          exact present⟩)
  rw [← List.length_map Prod.fst, ← Dict.keys, keys, List.length_singleton]

/-- Evicting the coldest slot keeps the accounts. -/
theorem cooled (accounts : Accounts recency cache) {coldTick : Nat} {old : BodyEntry}
    {rest : List (Nat × String)} (rows : cache.order.rows = (coldTick, elementId) :: rest)
    (held : cache.entries.get? elementId = some (old, coldTick)) :
    old.size ≤ cache.totalBytes ∧ (cache.cooled coldTick elementId old).order.rows = rest ∧
      Accounts recency (cache.cooled coldTick elementId old) := by
  have sorted := accounts.sorted
  rw [rows, List.pairwise_cons] at sorted
  have left : (cache.order.erase coldTick).rows = rest := by
    show cache.order.rows.filter _ = rest
    rw [rows, List.filter_cons_of_neg (by simp), List.filter_eq_self]
    intro row mem
    have := sorted.1 row mem
    have different : row.1 ≠ coldTick := by omega
    simpa using different
  have total := accounts.total
  rw [Dict.weight_erase _ held] at total
  have covered : old.size ≤ cache.totalBytes := by
    rw [total]
    exact Nat.le_add_right _ _
  refine ⟨covered, left, ?_⟩
  constructor
  case agree =>
    intro tick other
    simp only [BodyCache.cooled, Dict.get?_erase]
    rcases eq_or_ne other elementId with rfl | different
    · have owner := accounts.agree tick other
      simp only [held, Option.some.injEq, Prod.mk.injEq] at owner
      rcases eq_or_ne tick coldTick with rfl | later
      · simp
      · simp only [if_neg later, owner]
        simp [Ne.symm later]
    · have owner := accounts.agree coldTick elementId
      rcases eq_or_ne tick coldTick with rfl | later
      · have taken := owner.mpr ⟨old, held⟩
        have none' : ¬ ∃ entry, cache.entries.get? other = some (entry, tick) := by
          intro found
          rw [← accounts.agree, taken] at found
          exact different (Option.some.inj found).symm
        simp [different, none']
      · simp [different, later, accounts.agree]
  case sorted =>
    show (cache.order.erase coldTick).rows.Pairwise _
    rw [left]
    exact sorted.2
  case ticked =>
    intro row mem
    refine accounts.ticked row ?_
    rw [rows]
    exact List.mem_cons_of_mem _ (left ▸ mem)
  case warm =>
    show (cache.order.erase coldTick).rows.map Prod.snd <:+ recency
    have warm := accounts.warm
    rw [rows, List.map_cons] at warm
    rw [left]
    exact (List.suffix_cons _ _).trans warm
  case total =>
    show cache.totalBytes - old.size = _
    rw [total]
    exact Nat.add_sub_cancel_left _ _

end Accounts

theorem evict_maxBytes (newest fuel : Nat) (cache : BodyCache) :
    (evict newest fuel cache).maxBytes = cache.maxBytes := by
  induction fuel generalizing cache with
  | zero => rfl
  | succ fuel ih =>
    unfold evict
    split
    · split
      · rfl
      · split
        · rfl
        · dsimp only
          split
          · rw [ih]
          · rw [ih]
    · rfl

/-- The loop keeps the accounts, spares the slot just inserted and stops within the
budget or at that slot alone. -/
theorem evict_spec {recency : List String} {newest fuel : Nat} {elementId : String}
    {cache : BodyCache} {front : List (Nat × String)} (accounts : Accounts recency cache)
    (rows : cache.order.rows = front ++ [(newest, elementId)]) (enough : front.length ≤ fuel) :
    Accounts recency (evict newest fuel cache) ∧ (newest, elementId) ∈ (evict newest fuel cache).order.rows ∧
      ((evict newest fuel cache).totalBytes ≤ (evict newest fuel cache).maxBytes ∨
        (evict newest fuel cache).entries.rows.length = 1) ∧
      evictChecked newest fuel cache = some (evict newest fuel cache) := by
  have last : (newest, elementId) ∈ cache.order.rows := by
    rw [rows]
    exact List.mem_append_right _ (List.mem_singleton_self _)
  induction fuel generalizing cache front with
  | zero =>
    rw [List.eq_nil_of_length_eq_zero (Nat.le_zero.mp enough), List.nil_append] at rows
    exact ⟨accounts, last, .inr (accounts.length_entries rows), rfl⟩
  | succ fuel ih =>
    unfold evict evictChecked
    by_cases tooMuch : cache.totalBytes > cache.maxBytes ∧ cache.entries.rows.length > 1
    · rw [if_pos tooMuch, if_pos tooMuch]
      cases front with
      | nil =>
        have single := accounts.length_entries rows
        exact absurd tooMuch.2 (by omega)
      | cons row rest =>
        obtain ⟨coldTick, cold⟩ := row
        rw [List.cons_append] at rows
        have mem : (coldTick, cold) ∈ cache.order.rows := by
          rw [rows]
          exact List.mem_cons_self
        obtain ⟨old, held⟩ := accounts.mem_order.mp mem
        obtain ⟨covered, left, kept⟩ := accounts.cooled rows held
        have sorted := accounts.sorted
        rw [rows, List.pairwise_cons] at sorted
        have colder : coldTick ≠ newest := by
          have := sorted.1 (newest, elementId) (List.mem_append_right _ (List.mem_singleton_self _))
          omega
        have later := ih kept left (by
          rw [List.length_cons] at enough
          omega) (by
          rw [left]
          exact List.mem_append_right _ (List.mem_singleton_self _))
        simp only [accounts.coldest_eq rows, if_neg colder, held, debit, if_pos covered, Option.bind_some]
        exact later
    · rw [if_neg tooMuch, if_neg tooMuch]
      have present : cache.entries.rows.length > 0 := by
        obtain ⟨entry, held⟩ := accounts.mem_order.mp last
        exact List.length_pos_of_mem (Dict.mem_rows_iff.mpr held)
      exact ⟨accounts, last, by omega, rfl⟩

/-! ## The calls -/

/-- The byte count is within the budget, or one body is held. -/
def Fits (cache : BodyCache) : Prop :=
  cache.totalBytes ≤ cache.maxBytes ∨ cache.entries.rows.length = 1

section Calls

variable {recency : List String} {cache : BodyCache}

/-- An insertion gives a body the last place and evicts from there. -/
theorem insert_eq_evict (accounts : Accounts recency cache) (elementId : String) (entry : BodyEntry) :
    cache.insert elementId entry = evict (cache.tick + 1) (cache.placed elementId entry).order.rows.length
          (cache.placed elementId entry) ∧
      cache.insertChecked elementId entry =
        evictChecked (cache.tick + 1) (cache.placed elementId entry).order.rows.length
          (cache.placed elementId entry) := by
  have total := accounts.total
  unfold insert insertChecked placed lifted
  cases found : cache.entries.get? elementId with
  | none =>
    rw [Dict.weight_erase_of_absent _ found, ← total, Nat.add_comm entry.size]
    exact ⟨rfl, rfl⟩
  | some slot =>
    obtain ⟨old, oldTick⟩ := slot
    rw [Dict.weight_erase _ found] at total
    have left : cache.totalBytes - old.size =
        (cache.entries.erase elementId).weight fun slot => slot.1.size := by
      rw [total]
      exact Nat.add_sub_cancel_left _ _
    have covered : old.size ≤ cache.totalBytes := by
      rw [total]
      exact Nat.le_add_right _ _
    dsimp only
    rw [debit, if_pos covered, left, Nat.add_comm entry.size]
    exact ⟨rfl, rfl⟩

theorem insert_spec (accounts : Accounts recency cache) (elementId : String) (entry : BodyEntry) :
    Accounts (Usage.touch recency elementId) (cache.insert elementId entry) ∧
      (cache.insert elementId entry).peek elementId = some entry ∧ Fits (cache.insert elementId entry) ∧
      cache.insertChecked elementId entry = some (cache.insert elementId entry) := by
  obtain ⟨inserted, checked⟩ := insert_eq_evict accounts elementId entry
  have enough : (cache.order.rows.filter fun row => row.2 ≠ elementId).length ≤
      (cache.placed elementId entry).order.rows.length := by
    rw [accounts.rows_placed, List.length_append]
    exact Nat.le_add_right _ _
  obtain ⟨kept, spared, fits, covered⟩ := evict_spec (accounts.placed entry)
    (accounts.rows_placed entry) enough
  rw [inserted, checked]
  refine ⟨kept, ?_, fits, covered⟩
  obtain ⟨found, held⟩ := kept.mem_order.mp spared
  have before := evict_get?_imp held
  simp only [placed, Dict.get?_set, if_true, Option.some.injEq, Prod.mk.injEq, and_true] at before
  rw [peek, held, before]
  rfl

theorem cached_spec (accounts : Accounts recency cache) (fits : Fits cache) (elementId : String) :
    Accounts (if cache.holds elementId then Usage.touch recency elementId else recency)
        (cache.cached elementId).2 ∧
      Fits (cache.cached elementId).2 := by
  unfold cached
  cases found : cache.entries.get? elementId with
  | none =>
    have missed : ¬ cache.holds elementId := by
      rw [holds, found]
      decide
    rw [if_neg missed]
    exact ⟨⟨accounts.agree, accounts.sorted,
      fun row mem => Nat.le_succ_of_le (accounts.ticked row mem), accounts.warm,
      accounts.total⟩, fits⟩
  | some slot =>
    obtain ⟨entry, oldTick⟩ := slot
    have hit : cache.holds elementId := by
      rw [holds, found]
      rfl
    have total := accounts.total
    rw [Dict.weight_erase _ found] at total
    have same : cache.placed elementId entry =
        { cache with
          entries := cache.entries.set elementId (entry, cache.tick + 1)
          order := (cache.order.erase oldTick).set (cache.tick + 1) elementId
          tick := cache.tick + 1 } := by
      rw [placed, lifted, found, ← total]
    have lengths : (cache.entries.set elementId (entry, cache.tick + 1)).rows.length =
        cache.entries.rows.length :=
      (Dict.rows_set_perm _ _ _).length_eq.trans (Dict.rows_perm_cons_erase found).length_eq.symm
    rw [if_pos hit]
    dsimp only
    rw [← same]
    refine ⟨accounts.placed entry, ?_⟩
    rw [same]
    exact fits.imp id fun one => lengths.trans one

end Calls

theorem insert_maxBytes (elementId : String) (entry : BodyEntry) (cache : BodyCache) :
    (cache.insert elementId entry).maxBytes = cache.maxBytes := by
  unfold insert
  rw [evict_maxBytes]
  cases cache.entries.get? elementId <;> rfl

/-- No call changes the budget. -/
theorem call_maxBytes (cache : BodyCache) (next : Call) : (cache.call next).maxBytes = cache.maxBytes := by
  cases next with
  | insert elementId entry => exact insert_maxBytes elementId entry cache
  | updateRfc2822 elementId rfc2822 =>
    rw [call, updateRfc2822]
    split
    · rfl
    · exact insert_maxBytes elementId _ cache
  | cached elementId =>
    rw [call, cached]
    cases cache.entries.get? elementId <;> rfl

/-- What holds of the cache and its observer after every run of calls. -/
structure Sound (cache : BodyCache) (usage : Usage) : Prop where
  accounts : Accounts usage.recency cache
  fits : Fits cache
  distinct : usage.recency.Nodup
  last : ∀ elementId entry, cache.peek elementId = some entry → usage.last elementId = some entry

namespace Sound

variable {cache : BodyCache} {usage : Usage}

theorem nodup_touch {recency : List String} (distinct : recency.Nodup) (elementId : String) :
    (Usage.touch recency elementId).Nodup := by
  refine (distinct.filter _).append (List.nodup_singleton _) ?_
  simp [List.disjoint_singleton]

theorem insert (sound : Sound cache usage) (elementId : String) (entry : BodyEntry) :
    Sound (cache.insert elementId entry) (usage.insert elementId entry) := by
  obtain ⟨accounts, inserted, fits, -⟩ := insert_spec sound.accounts elementId entry
  refine ⟨accounts, fits, nodup_touch sound.distinct elementId, fun other found held => ?_⟩
  show Function.update usage.last elementId (some entry) other = some found
  rcases eq_or_ne other elementId with rfl | different
  · rw [Function.update_self, ← inserted, held]
  · rw [Function.update_of_ne different]
    refine sound.last other found ((peek_insert_imp held).resolve_left ?_)
    rintro ⟨same, -⟩
    exact different same

/-- One call keeps everything, and none of its subtractions underflows. -/
theorem call (sound : Sound cache usage) (next : Call) : Sound (cache.call next) (usage.call cache next) ∧
      cache.callChecked next = some (cache.call next) := by
  cases next with
  | insert elementId entry =>
    exact ⟨sound.insert elementId entry, (insert_spec sound.accounts elementId entry).2.2.2⟩
  | updateRfc2822 elementId rfc2822 =>
    simp only [BodyCache.call, Usage.call, callChecked, updateRfc2822, peek]
    cases cache.entries.get? elementId with
    | none => exact ⟨sound, rfl⟩
    | some slot =>
      exact ⟨sound.insert elementId _, (insert_spec sound.accounts elementId _).2.2.2⟩
  | cached elementId =>
    obtain ⟨accounts, fits⟩ := cached_spec sound.accounts sound.fits elementId
    refine ⟨?_, rfl⟩
    have last : ∀ other entry, (cache.cached elementId).2.peek other = some entry →
        usage.last other = some entry := by
      intro other entry held
      rw [peek_cached] at held
      exact sound.last other entry held
    simp only [BodyCache.call, Usage.call]
    by_cases hit : cache.holds elementId
    · rw [if_pos hit] at accounts ⊢
      exact ⟨accounts, fits, nodup_touch sound.distinct elementId, last⟩
    · rw [if_neg hit] at accounts ⊢
      exact ⟨accounts, fits, sound.distinct, last⟩

theorem run (maxBytes : Nat) (calls : List Call) :
    Sound (BodyCache.run maxBytes calls).1 (BodyCache.run maxBytes calls).2 := by
  have start : Sound (withCapacity maxBytes) .none :=
    ⟨.withCapacity maxBytes, .inl (Nat.zero_le _), List.nodup_nil, by simp [peek, withCapacity]⟩
  exact List.foldlRecOn (motive := fun state : BodyCache × Usage => Sound state.1 state.2) calls _ start
    fun state sound next _ => (sound.call next).1

end Sound

/-- After every run of calls, at any budget: the two maps have the same slots, the byte
count is exact and no further call underflows it, the budget is kept or one body is held,
what is held was used last, in the order of its ticks, an insertion is held, and a hit is
what was inserted last. -/
theorem run_agrees_with_usage (maxBytes : Nat) (calls : List Call) :
    let cache := (run maxBytes calls).1
    let usage := (run maxBytes calls).2
    (∀ tick elementId, cache.order.get? tick = some elementId ↔
        ∃ entry, cache.entries.get? elementId = some (entry, tick)) ∧
      cache.totalBytes = (cache.entries.rows.map fun row => row.2.1.size).sum ∧
      (∀ next, cache.callChecked next = some (cache.call next)) ∧
      (cache.totalBytes ≤ maxBytes ∨ cache.entries.rows.length = 1) ∧
      (∀ elementId entry, ((cache.insert elementId entry).cached elementId).1 = some entry) ∧
      (usage.recency.Nodup ∧ ∃ slots : List (Nat × String),
        slots.Pairwise (fun left right => left.1 < right.1) ∧
        (∀ slot, slot ∈ slots ↔ cache.order.get? slot.1 = some slot.2) ∧
        slots.map Prod.snd <:+ usage.recency) ∧
      ∀ elementId entry, (cache.cached elementId).1 = some entry → usage.last elementId = some entry := by
  intro cache usage
  have sound : Sound cache usage := Sound.run maxBytes calls
  have budget : cache.maxBytes = maxBytes :=
    List.foldlRecOn (motive := fun state : BodyCache × Usage => state.1.maxBytes = maxBytes) calls _ rfl
      fun state same next _ => (call_maxBytes state.1 next).trans same
  refine ⟨sound.accounts.agree, sound.accounts.total, fun next => (sound.call next).2,
    budget ▸ sound.fits, fun elementId entry => ?_, ⟨sound.distinct, cache.order.rows,
      sound.accounts.sorted, fun _ => Dict.mem_rows_iff, sound.accounts.warm⟩,
    fun elementId entry hit => ?_⟩
  · rw [cached_fst]
    exact (insert_spec sound.accounts elementId entry).2.1
  · rw [cached_fst] at hit
    exact sound.last elementId entry hit

end TutaBridge.Store.BodyCache
