import Mathlib

/-! # Decimal numbers at the front of a text

A scanner takes the longest run of characters that satisfy a test. A run that is followed by a
character that fails the test is found whole, and the decimal digits of a number neither are
empty nor start with a needless zero.
-/

namespace Scan

/-- The run at the front of a text that goes on with something else. -/
theorem takeWhile_append {α : Type*} {p : α → Bool} {run rest : List α}
    (hrun : ∀ c ∈ run, p c = true) (hrest : ∀ c ∈ rest.head?, p c = false) :
    (run ++ rest).takeWhile p = run := by
  rw [List.takeWhile_append_of_pos hrun]
  cases rest with
  | nil => simp
  | cons c t => simp [hrest c rfl]

theorem dropWhile_append {α : Type*} {p : α → Bool} {run rest : List α}
    (hrun : ∀ c ∈ run, p c = true) (hrest : ∀ c ∈ rest.head?, p c = false) :
    (run ++ rest).dropWhile p = rest := by
  rw [List.dropWhile_append_of_pos hrun]
  cases rest with
  | nil => simp
  | cons c t => simp [hrest c rfl]

theorem isDigit_toDigits (n : ℕ) : ∀ c ∈ Nat.toDigits 10 n, c.isDigit = true :=
  fun _ hc => Nat.isDigit_of_mem_toDigits (by decide) le_rfl hc

theorem toDigits_no_leading_zero {n : ℕ} (h : (Nat.toDigits 10 n).head? = some '0') : n = 0 := by
  induction n using Nat.strong_induction_on with
  | _ n ih =>
    rw [Nat.toDigits_eq_if (by decide)] at h
    split at h
    · next hlt => revert h; interval_cases n <;> decide
    · next hge =>
      rw [List.head?_append_of_ne_nil _ Nat.toDigits_ne_nil] at h
      have := ih (n / 10) (by omega) h
      omega

end Scan
