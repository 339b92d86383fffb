import Mathlib.Data.List.Basic

/-!
# Runs that act on a state

A run goes from a state to a state and returns a value or stops with an error; what it did before it
stopped stays done. What a run returned is told step by step; a run all of whose steps stay within an
order on the states stays within it, wherever it stops.
-/

namespace TutaBridge.Std

/-! ## Results -/

section Except

variable {ε δ α β : Type}

theorem except_map_eq_ok_iff {result : Except ε α} {change : α → β} {value : β} :
    result.map change = .ok value ↔ ∃ given, result = .ok given ∧ change given = value := by
  cases result <;> simp [Except.map]

theorem except_bind_eq_ok_iff {result : Except ε α} {next : α → Except ε β} {value : β} :
    (result >>= next) = .ok value ↔ ∃ given, result = .ok given ∧ next given = .ok value := by
  cases result <;> simp [bind, Except.bind]

theorem except_mapError_eq_ok_iff {result : Except ε α} {change : ε → δ} {value : α} :
    result.mapError change = .ok value ↔ result = .ok value := by
  cases result <;> simp [Except.mapError]

/-- What every step that goes on keeps, a loop that goes on keeps. -/
theorem except_foldlM_invariant {step : β → α → Except ε β} (Inv : β → Prop) {items : List α}
    (keeps : ∀ state, Inv state → ∀ item ∈ items, ∀ more, step state item = .ok more → Inv more)
    {state final : β} (holds : Inv state) (ran : items.foldlM step state = .ok final) : Inv final := by
  induction items generalizing state with
  | nil =>
    cases ran
    exact holds
  | cons item rest ih =>
    rw [List.foldlM_cons, except_bind_eq_ok_iff] at ran
    obtain ⟨between, isStep, isRest⟩ := ran
    refine ih ?_ (keeps state holds item List.mem_cons_self between isStep) isRest
    exact fun state holds other mem => keeps state holds other (List.mem_cons_of_mem _ mem)

/-- A loop stops for a reason one of its steps stops for. -/
theorem except_foldlM_error {step : β → α → Except ε β} (Reason : ε → Prop) {items : List α}
    (reasons : ∀ state, ∀ item ∈ items, ∀ error, step state item = .error error → Reason error)
    {state : β} {error : ε} (stopped : items.foldlM step state = .error error) : Reason error := by
  induction items generalizing state with
  | nil => cases stopped
  | cons item rest ih =>
    rw [List.foldlM_cons] at stopped
    cases isStep : step state item with
    | ok more =>
      rw [isStep] at stopped
      exact ih (fun state other mem => reasons state other (List.mem_cons_of_mem _ mem)) stopped
    | error reason =>
      rw [isStep] at stopped
      cases stopped
      exact reasons state item List.mem_cons_self error isStep

/-- The results of a loop are those of its items. -/
theorem except_mapM_forall₂ {step : α → Except ε β} {items : List α} {results : List β}
    (ran : items.mapM step = .ok results) :
    List.Forall₂ (fun item result => step item = .ok result) items results := by
  induction items generalizing results with
  | nil =>
    cases ran
    exact .nil
  | cons item rest ih =>
    rw [List.mapM_cons, except_bind_eq_ok_iff] at ran
    obtain ⟨first, isFirst, ran⟩ := ran
    obtain ⟨others, areOthers, same⟩ := except_bind_eq_ok_iff.mp ran
    cases same
    exact .cons isFirst (ih areOthers)

/-- A loop goes through where each of its items does. -/
theorem except_mapM_eq_ok_iff {step : α → Except ε β} {items : List α} {results : List β} :
    items.mapM step = .ok results ↔ List.Forall₂ (fun item result => step item = .ok result) items results := by
  refine ⟨except_mapM_forall₂, fun each => ?_⟩
  induction each with
  | nil => rfl
  | cons isFirst _ ih =>
    rw [List.mapM_cons, except_bind_eq_ok_iff]
    exact ⟨_, isFirst, except_bind_eq_ok_iff.mpr ⟨_, ih, rfl⟩⟩

end Except

/-! ## Acting -/

/-- A run from a state: what it returns or why it stopped, and the state it leaves. -/
def Acting (σ ε α : Type) : Type := σ → Except ε α × σ

namespace Acting

variable {σ ε α β : Type}

instance : Monad (Acting σ ε) where
  pure value := fun state => (.ok value, state)
  bind run next := fun state =>
    match run state with
    | (.ok value, after) => next value after
    | (.error error, after) => (.error error, after)

/-- Go on with a value, or stop. -/
def lift (value : Except ε α) : Acting σ ε α := fun state => (value, state)

/-- Stop. -/
def stop (error : ε) : Acting σ ε α := lift (.error error)

/-- Read the state. -/
def get : Acting σ ε σ := fun state => (.ok state, state)

/-- Stop for another reason. -/
def mapError {δ : Type} (change : ε → δ) (run : Acting σ ε α) : Acting σ δ α := fun state =>
  ((run state).1.mapError change, (run state).2)

/-- Act and see what came of it. -/
def attempt {δ : Type} (run : Acting σ ε α) : Acting σ δ (Except ε α) := fun state =>
  (.ok (run state).1, (run state).2)

section Returns

variable {state after : σ} {value : α}

@[simp] theorem pure_eq_iff {given : α} :
    (pure given : Acting σ ε α) state = (.ok value, after) ↔ given = value ∧ state = after := by
  simp [pure]

@[simp] theorem lift_eq_iff {given : Except ε α} :
    lift given state = (.ok value, after) ↔ given = .ok value ∧ state = after := by
  rw [lift, Prod.mk.injEq]

@[simp] theorem stop_ne {error : ε} : (stop error : Acting σ ε α) state ≠ (.ok value, after) := by
  simp [stop, lift]

@[simp] theorem get_eq_iff {read : σ} :
    (get : Acting σ ε σ) state = (.ok read, after) ↔ state = read ∧ state = after := by
  simp [get]

/-- A run returns what its second half makes of what its first half returned. -/
theorem bind_eq_iff {run : Acting σ ε β} {next : β → Acting σ ε α} : (run >>= next) state = (.ok value, after) ↔
      ∃ middle between, run state = (.ok middle, between) ∧ next middle between = (.ok value, after) := by
  show (match run state with
    | (.ok middle, between) => next middle between
    | (.error error, between) => (.error error, between)) = _ ↔ _
  split
  next middle between ran =>
    rw [ran]
    constructor
    · exact fun ends => ⟨middle, between, rfl, ends⟩
    · rintro ⟨_, _, same, ends⟩
      cases same
      exact ends
  next error between ran => simp [ran]

/-- A run stops where one of its halves does. -/
theorem bind_eq_error_iff {run : Acting σ ε β} {next : β → Acting σ ε α} {error : ε} :
    (run >>= next) state = (.error error, after) ↔ run state = (.error error, after) ∨
        ∃ middle between, run state = (.ok middle, between) ∧ next middle between = (.error error, after) := by
  show (match run state with
    | (.ok middle, between) => next middle between
    | (.error error, between) => (.error error, between)) = _ ↔ _
  split
  next middle between ran => simp [ran]
  next stopped between ran => simp [ran]

/-- What follows a run that returned. -/
theorem bind_of_ok {run : Acting σ ε β} {next : β → Acting σ ε α} {middle : β} {between : σ}
    (ran : run state = (.ok middle, between)) : (run >>= next) state = next middle between := by
  show (match run state with
    | (.ok middle, between) => next middle between
    | (.error error, between) => (.error error, between)) = _
  rw [ran]

/-- Nothing follows a run that stopped. -/
theorem bind_of_error {run : Acting σ ε β} {next : β → Acting σ ε α} {error : ε} {between : σ}
    (ran : run state = (.error error, between)) : (run >>= next) state = (.error error, between) := by
  show (match run state with
    | (.ok middle, between) => next middle between
    | (.error error, between) => (.error error, between)) = _
  rw [ran]

@[simp] theorem mapError_eq_iff {δ : Type} {change : ε → δ} {run : Acting σ ε α} :
    mapError change run state = (.ok value, after) ↔ run state = (.ok value, after) := by
  rw [mapError]
  obtain ⟨returned, between⟩ := run state
  cases returned <;> simp [Except.mapError]

theorem mapError_eq_error_iff {δ : Type} {change : ε → δ} {run : Acting σ ε α} {error : δ} :
    mapError change run state = (.error error, after) ↔
      ∃ reason, run state = (.error reason, after) ∧ change reason = error := by
  rw [mapError]
  obtain ⟨returned, between⟩ := run state
  cases returned <;> simp [Except.mapError, and_comm]

theorem attempt_eq_iff {δ : Type} {run : Acting σ ε α} {result : Except ε α} :
    (attempt run : Acting σ δ (Except ε α)) state = (.ok result, after) ↔ run state = (result, after) := by
  rw [attempt]
  obtain ⟨returned, between⟩ := run state
  simp

end Returns

/-! ## Within an order -/

/-- A run goes up in an order on the states, wherever it stops. -/
def Within (below : σ → σ → Prop) (run : Acting σ ε α) : Prop := ∀ state, below state (run state).2

section Within

variable {below : σ → σ → Prop}

theorem Within.of_eq {run : Acting σ ε α} (within : Within below run) {state after : σ} {result : Except ε α}
    (ran : run state = (result, after)) : below state after := by
  have ordered := within state
  rw [ran] at ordered
  exact ordered

theorem Within.mapError {δ : Type} {change : ε → δ} {run : Acting σ ε α} (within : Within below run) :
    Within below (mapError change run) := within

theorem Within.attempt {δ : Type} {run : Acting σ ε α} (within : Within below run) :
    Within below (attempt run : Acting σ δ (Except ε α)) := within

theorem Within.bind [IsTrans σ below] {run : Acting σ ε β} {next : β → Acting σ ε α} (within : Within below run)
    (later : ∀ value, Within below (next value)) : Within below (run >>= next) := by
  intro state
  have first := within state
  show below state (match run state with
    | (.ok value, after) => next value after
    | (.error error, after) => (.error error, after)).2
  split
  next value after ran =>
    rw [ran] at first
    exact IsTrans.trans _ _ _ first (later value after)
  next error after ran =>
    rw [ran] at first
    exact first

/-- As `bind`, with what is known of a value that is returned. -/
theorem Within.bind_of_returns [IsTrans σ below] {run : Acting σ ε β} {next : β → Acting σ ε α} {Good : β → Prop}
    (within : Within below run) (returns : ∀ state value after, run state = (.ok value, after) → Good value)
    (later : ∀ value, Good value → Within below (next value)) : Within below (run >>= next) := by
  intro state
  cases ran : run state with
  | mk result after =>
    have first := within.of_eq ran
    cases result with
    | ok value =>
      rw [bind_of_ok ran]
      exact IsTrans.trans _ _ _ first (later value (returns state value after ran) after)
    | error error =>
      rw [bind_of_error ran]
      exact first

variable [Std.Refl below]

theorem within_pure (value : α) : Within below (pure value : Acting σ ε α) := fun state => Std.Refl.refl state

theorem within_lift (value : Except ε α) :
    Within below (lift value : Acting σ ε α) := fun state => Std.Refl.refl state

theorem within_get : Within below (get : Acting σ ε σ) := fun state => Std.Refl.refl state

/-- A loop of steps that go up goes up. -/
theorem within_forM [IsTrans σ below] {step : β → Acting σ ε Unit} {items : List β}
    (within : ∀ item ∈ items, Within below (step item)) : Within below (items.forM step) := by
  induction items with
  | nil => exact within_pure ()
  | cons item rest ih =>
    obtain ⟨first, others⟩ := List.forall_mem_cons.mp within
    exact first.bind fun _ => ih others

end Within

/-! ## Why a run stops -/

/-- A run does not stop for such a reason. -/
def Never (bad : ε → Prop) (run : Acting σ ε α) (state : σ) : Prop :=
  ∀ error, (run state).1 = .error error → ¬bad error

section Never

variable {bad : ε → Prop} {state : σ}

theorem never_pure (value : α) : Never bad (pure value : Acting σ ε α) state := by
  intro error stopped
  cases stopped

theorem never_lift {value : Except ε α} (harmless : ∀ error, value = .error error → ¬bad error) :
    Never bad (lift value : Acting σ ε α) state := harmless

/-- Neither half stops for a bad reason, the second with what the first returned. -/
theorem Never.bind {run : Acting σ ε β} {next : β → Acting σ ε α} (first : Never bad run state)
    (second : ∀ value after, run state = (.ok value, after) → Never bad (next value) after) :
    Never bad (run >>= next) state := by
  intro error
  show (match run state with
    | (.ok value, after) => next value after
    | (.error error, after) => (.error error, after)).1 = _ → _
  split
  next value after ran => exact second value after ran error
  next stopped after ran =>
    intro same
    cases same
    exact first error (by rw [ran])

end Never

end Acting

end TutaBridge.Std
