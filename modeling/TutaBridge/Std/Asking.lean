import TutaBridge.Std.Acting

/-!
# Runs that ask

A run asks and goes on with what is answered, which may depend on all that was asked before. The
exchanges are kept: what a run returns is told from what was answered, and a run that stops early
has asked no more.
-/

namespace TutaBridge.Std

/-- A run over the exchanges so far: what it returns or why it stopped, and all exchanges. -/
abbrev Asking (χ ε α : Type) : Type := Acting (List χ) ε α

namespace Asking

variable {χ ε α β : Type}

/-- Ask, and keep the exchange. -/
def ask (answer : List χ → β) (exchange : β → χ) : Asking χ ε β := fun asked =>
  (.ok (answer asked), asked ++ [exchange (answer asked)])

@[simp] theorem ask_eq_iff {asked after : List χ} {value : α} {answer : List χ → α} {exchange : α → χ} :
    (ask answer exchange : Asking χ ε α) asked = (.ok value, after) ↔
      answer asked = value ∧ asked ++ [exchange value] = after := by
  simp only [ask, Prod.mk.injEq, Except.ok.injEq]
  exact and_congr_right fun same => by rw [same]

theorem never_ask {bad : ε → Prop} {asked : List χ} (answer : List χ → β) (exchange : β → χ) :
    Acting.Never bad (ask answer exchange : Asking χ ε β) asked := by
  intro error stopped
  cases stopped

/-! ## Exchanges are kept -/

/-- A run forgets no exchange. -/
abbrev Keeps (run : Asking χ ε α) : Prop := Acting.Within List.IsPrefix run

instance : Std.Refl (@List.IsPrefix χ) := ⟨List.prefix_refl⟩

instance : IsTrans (List χ) List.IsPrefix := ⟨fun _ _ _ => List.IsPrefix.trans⟩

theorem keeps_ask (answer : List χ → β) (exchange : β → χ) : Keeps (ask answer exchange : Asking χ ε β) :=
  fun _ => List.prefix_append _ _

theorem Keeps.subset {run : Asking χ ε α} (keeps : Keeps run) {asked after : List χ} {value : α}
    (ran : run asked = (.ok value, after)) : asked ⊆ after :=
  (keeps.of_eq ran).subset

end Asking

end TutaBridge.Std
