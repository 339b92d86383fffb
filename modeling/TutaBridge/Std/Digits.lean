import TutaBridge.Std.Text

/-!
# The order of padded numbers

Texts sort character by character. Numbers padded to one length sort as texts as they do as
numbers, and a stamp of several of them by the first that differs.
-/

namespace TutaBridge.Std.Text

theorem length_padded {width value : Nat} (fits : value < 10 ^ width) (positive : 0 < width) :
    (padded width value).length = width := by
  have short : (decimal value).length ≤ width :=
    (Nat.length_toDigits_le_iff (by decide) positive).mpr fits
  rw [padded, List.leftpad, List.length_append, List.length_replicate]
  omega

/-- The value of a padded number. -/
theorem ofDigitChars_padded (width value : Nat) : Nat.ofDigitChars 10 (padded width value) 0 = value := by
  rw [padded, List.leftpad, Nat.ofDigitChars_append, Nat.ofDigitChars_replicate_zero, Nat.mul_zero]
  exact Nat.ofDigitChars_ten_toDigits

/-- A number has less than one digit more. -/
theorem ofDigitChars_lt {text : Text} (digits : ∀ char ∈ text, char.isDigit = true) :
    Nat.ofDigitChars 10 text 0 < 10 ^ text.length := by
  induction text with
  | nil => simp [Nat.ofDigitChars]
  | cons head rest ih =>
    obtain ⟨first, others⟩ := List.forall_mem_cons.mp digits
    have small := ih others
    have digit := toNat_of_isDigit first
    rw [Nat.ofDigitChars_cons, Nat.ofDigitChars_eq_ofDigitChars_zero, List.length_cons, Nat.pow_succ]
    have value : 10 * 0 + (head.toNat - '0'.toNat) ≤ 9 := by
      show 10 * 0 + (head.toNat - 48) ≤ 9
      omega
    have := Nat.mul_le_mul_left (10 ^ rest.length) value
    omega

/-- One text before another: the first character that differs decides. -/
def SortsBefore (first second : Text) : Prop :=
  List.Lex (fun left right : Char => left.toNat < right.toNat) first second

/-- One text not after another. -/
def SortsUpTo (first second : Text) : Prop := first = second ∨ SortsBefore first second

theorem sortsBefore_trichotomy (first second : Text) :
    SortsBefore first second ∨ first = second ∨ SortsBefore second first := by
  induction first generalizing second with
  | nil =>
    cases second with
    | nil => exact .inr (.inl rfl)
    | cons head rest => exact .inl .nil
  | cons firstHead firstRest ih =>
    cases second with
    | nil => exact .inr (.inr .nil)
    | cons secondHead secondRest =>
      rcases Nat.lt_trichotomy firstHead.toNat secondHead.toNat with less | same | greater
      · exact .inl (.rel less)
      · obtain rfl := Char.toNat_inj.mp same
        rcases ih secondRest with before | rfl | after
        · exact .inl (.cons before)
        · exact .inr (.inl rfl)
        · exact .inr (.inr (.cons after))
      · exact .inr (.inr (.rel greater))

/-- Of two numbers of one length the one that sorts before the other is less. -/
theorem ofDigitChars_lt_of_sortsBefore {first second : Text} (before : SortsBefore first second)
    (sameLength : first.length = second.length) (firstDigits : ∀ char ∈ first, char.isDigit = true)
    (secondDigits : ∀ char ∈ second, char.isDigit = true) :
    Nat.ofDigitChars 10 first 0 < Nat.ofDigitChars 10 second 0 := by
  induction before with
  | nil => cases sameLength
  | @cons head firstRest secondRest restBefore ih =>
    have sameRest : firstRest.length = secondRest.length := Nat.succ.inj sameLength
    have behind := ih sameRest (List.forall_mem_cons.mp firstDigits).2
      (List.forall_mem_cons.mp secondDigits).2
    rw [Nat.ofDigitChars_cons, Nat.ofDigitChars_eq_ofDigitChars_zero, Nat.ofDigitChars_cons,
      @Nat.ofDigitChars_eq_ofDigitChars_zero secondRest, sameRest]
    omega
  | @rel firstHead firstRest secondHead secondRest less =>
    have sameRest : firstRest.length = secondRest.length := Nat.succ.inj sameLength
    obtain ⟨isDigit, others⟩ := List.forall_mem_cons.mp firstDigits
    have digit := toNat_of_isDigit isDigit
    have bound := ofDigitChars_lt others
    rw [Nat.ofDigitChars_cons, Nat.ofDigitChars_eq_ofDigitChars_zero, Nat.ofDigitChars_cons,
      @Nat.ofDigitChars_eq_ofDigitChars_zero secondRest, sameRest]
    rw [sameRest] at bound
    have step : 10 * 0 + (firstHead.toNat - '0'.toNat) + 1 ≤ 10 * 0 + (secondHead.toNat - '0'.toNat) := by
      show 10 * 0 + (firstHead.toNat - 48) + 1 ≤ 10 * 0 + (secondHead.toNat - 48)
      omega
    have := Nat.mul_le_mul_left (10 ^ secondRest.length) step
    rw [Nat.mul_succ] at this
    omega

/-- What differs first decides, whatever follows. -/
theorem SortsBefore.append {first second : Text} (before : SortsBefore first second)
    (sameLength : first.length = second.length) (firstRest secondRest : Text) :
    SortsBefore (first ++ firstRest) (second ++ secondRest) := by
  induction before with
  | nil => cases sameLength
  | cons restBefore ih => exact .cons (ih (Nat.succ.inj sameLength))
  | rel less => exact .rel less

theorem SortsUpTo.append_left {first second : Text} (inOrder : SortsUpTo first second) (front : Text) :
    SortsUpTo (front ++ first) (front ++ second) := by
  rcases inOrder with rfl | before
  · exact .inl rfl
  · refine .inr ?_
    induction front with
    | nil => exact before
    | cons head rest ih => exact .cons ih

section Padded

variable {width first second : Nat}

/-- Padded numbers sort as the numbers do. -/
theorem padded_sortsBefore (positive : 0 < width) (fits : second < 10 ^ width) (less : first < second) :
    SortsBefore (padded width first) (padded width second) := by
  have firstLength := length_padded (Nat.lt_trans less fits) positive
  have secondLength := length_padded fits positive
  rcases sortsBefore_trichotomy (padded width first) (padded width second) with before | same | after
  · exact before
  · have values := congrArg (fun text => Nat.ofDigitChars 10 text 0) same
    simp only [ofDigitChars_padded] at values
    omega
  · have values := ofDigitChars_lt_of_sortsBefore after (secondLength.trans firstLength.symm)
      (fun _ => mem_padded) (fun _ => mem_padded)
    rw [ofDigitChars_padded, ofDigitChars_padded] at values
    omega

/-- A stamp sorts by its first number, and by what follows where that is the same. -/
theorem padded_append_sortsUpTo (positive : 0 < width) (fits : second < 10 ^ width) {firstRest secondRest : Text}
    (inOrder : first < second ∨ first = second ∧ SortsUpTo firstRest secondRest) :
    SortsUpTo (padded width first ++ firstRest) (padded width second ++ secondRest) := by
  rcases inOrder with less | ⟨rfl, rest⟩
  · refine .inr ((padded_sortsBefore positive fits less).append ?_ firstRest secondRest)
    rw [length_padded (Nat.lt_trans less fits) positive, length_padded fits positive]
  · exact rest.append_left _

end Padded

end TutaBridge.Std.Text
