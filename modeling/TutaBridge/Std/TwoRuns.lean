import Mathlib.Data.List.Forall2
import TutaBridge.Std.Transducer

/-!
# Two runs side by side

What a machine writes may tell the mode it was written in and the mode it leaves. The items
of a run then lead from the first mode to the last, and two runs whose items correspond stay
in modes that correspond: of the two machines nothing but what they write is compared.
-/

namespace TutaBridge.Std

variable {σ α β β' μ μ' : Type}

/-- The items lead from a mode to another: each was written in the mode that the one before
it left. -/
inductive Leads (entered left : β → μ) : μ → List β → μ → Prop where
  | nil (mode : μ) : Leads entered left mode [] mode
  | cons {item : β} {rest : List β} {final : μ} (later : Leads entered left (left item) rest final) :
      Leads entered left (entered item) (item :: rest) final

namespace Leads

variable {entered left : β → μ} {entered' left' : β' → μ'}

theorem single {item : β} {mode next : μ} (enters : entered item = mode) (leaves : left item = next) :
    Leads entered left mode [item] next := by
  subst enters leaves
  exact .cons (.nil _)

theorem append {first middle final : μ} {early late : List β}
    (before : Leads entered left first early middle) (behind : Leads entered left middle late final) :
    Leads entered left first (early ++ late) final := by
  induction before with
  | nil mode => exact behind
  | cons later ih => exact .cons (ih behind)

/-- If what each step writes leads from mode to mode, so does what a run writes. -/
theorem of_run {step : σ → α → List β × σ} {mode : σ → μ} (ofStep : ∀ state label,
      Leads entered left (mode state) (step state label).1 (mode (step state label).2))
    (state : σ) (labels : List α) :
    Leads entered left (mode state) (run step state labels).1 (mode (run step state labels).2) := by
  induction labels generalizing state with
  | nil => exact .nil _
  | cons label rest ih => exact (ofStep state label).append (ih _)

/-- Corresponding items of two runs are written in modes that correspond, if the modes that
corresponding items leave then correspond, too. -/
theorem forall₂ {Same : β → β' → Prop} {Alike : μ → μ' → Prop}
    (kept : ∀ item other, Same item other → Alike (entered item) (entered' other) → Alike (left item) (left' other))
    {mode final : μ} {mode' final' : μ'} {items : List β} {others : List β'}
    (leads : Leads entered left mode items final) (leads' : Leads entered' left' mode' others final')
    (alike : Alike mode mode') (same : List.Forall₂ Same items others) :
    List.Forall₂ (fun item other => Same item other ∧ Alike (entered item) (entered' other)) items others := by
  induction same generalizing mode mode' with
  | nil => exact .nil
  | cons sameItem _ ih =>
    cases leads with
    | cons later =>
      cases leads' with
      | cons later' =>
        exact .cons ⟨sameItem, alike⟩ (ih later later' (kept _ _ sameItem alike))

end Leads

end TutaBridge.Std
