import Mathlib

/-! # One's-complement sums

Addition with an end-around carry: a sum above the largest word loses that word. Zero has two
representations, 0 and the largest word, and a sum of words that are not all 0 is never 0. So such a
sum is the one representative from 1 to the largest word of its class modulo the largest word.
-/

namespace OnesComplement

/-- Addition with an end-around carry; the largest word is `m`. -/
def add (m a b : ℕ) : ℕ := if m < a + b then a + b - m else a + b

def sum (m : ℕ) (words : List ℕ) : ℕ := words.foldl (add m) 0

variable {m a b : ℕ} {words : List ℕ}

theorem add_modEq (m a b : ℕ) : add m a b ≡ a + b [MOD m] := by
  rw [add]
  split
  · rename_i h
    calc a + b - m ≡ a + b - m + m [MOD m] := (Nat.add_modEq_right).symm
      _ = a + b := Nat.sub_add_cancel h.le
  · rfl

theorem add_le (ha : a ≤ m) (hb : b ≤ m) : add m a b ≤ m := by
  rw [add]
  split <;> omega

theorem add_pos (h : 0 < a ∨ 0 < b) : 0 < add m a b := by
  rw [add]
  split <;> omega

theorem foldl_add_modEq (words : List ℕ) (a : ℕ) :
    words.foldl (add m) a ≡ a + words.sum [MOD m] := by
  induction words generalizing a with
  | nil => rfl
  | cons w words ih =>
    rw [List.foldl_cons, List.sum_cons, ← Nat.add_assoc]
    exact (ih (add m a w)).trans ((add_modEq m a w).add_right words.sum)

theorem foldl_add_le (ha : a ≤ m) (hwords : ∀ w ∈ words, w ≤ m) : words.foldl (add m) a ≤ m := by
  induction words generalizing a with
  | nil => exact ha
  | cons w words ih =>
    exact ih (add_le ha (hwords w List.mem_cons_self))
      fun w' hw' => hwords w' (List.mem_cons_of_mem w hw')

theorem foldl_add_pos (h : 0 < a ∨ ∃ w ∈ words, 0 < w) : 0 < words.foldl (add m) a := by
  induction words generalizing a with
  | nil =>
    rcases h with h | ⟨w, hw, _⟩
    · exact h
    · cases hw
  | cons w words ih =>
    apply ih
    rcases h with h | ⟨w', hw', hpos⟩
    · exact Or.inl (add_pos (Or.inl h))
    · rcases List.mem_cons.mp hw' with rfl | hw'
      · exact Or.inl (add_pos (Or.inr hpos))
      · exact Or.inr ⟨w', hw', hpos⟩

theorem sum_modEq (m : ℕ) (words : List ℕ) : sum m words ≡ words.sum [MOD m] := by
  simpa [sum] using foldl_add_modEq (m := m) words 0

theorem sum_le (hwords : ∀ w ∈ words, w ≤ m) : sum m words ≤ m :=
  foldl_add_le (Nat.zero_le m) hwords

theorem sum_pos (h : ∃ w ∈ words, 0 < w) : 0 < sum m words := foldl_add_pos (Or.inr h)

/-- There is one representative from 1 to the largest word. -/
theorem eq_of_modEq (h : a ≡ b [MOD m]) (ha : 0 < a) (ham : a ≤ m) (hb : 0 < b) (hbm : b ≤ m) :
    a = b := by
  rcases ham.lt_or_eq with ham | rfl
  · rcases hbm.lt_or_eq with hbm | rfl
    · exact h.eq_of_lt_of_lt ham hbm
    · rw [Nat.ModEq, Nat.mod_self, Nat.mod_eq_of_lt ham] at h
      omega
  · rcases hbm.lt_or_eq with hbm | rfl
    · rw [Nat.ModEq, Nat.mod_self, Nat.mod_eq_of_lt hbm] at h
      omega
    · rfl

/-- The check of a receiver: the complement of a sum in the place of a word that was 0 brings the
sum to the largest word. -/
theorem sum_complement {before after : List ℕ}
    (hwords : ∀ w ∈ before ++ 0 :: after, w ≤ m) (hpos : ∃ w ∈ before ++ 0 :: after, 0 < w) :
    sum m (before ++ (m - sum m (before ++ 0 :: after)) :: after) = m := by
  have hle := sum_le hwords
  have hm : 0 < m := by
    obtain ⟨w, hw, hw0⟩ := hpos
    exact hw0.trans_le (hwords w hw)
  have hsum : sum m (before ++ (m - sum m (before ++ 0 :: after)) :: after) ≡ m [MOD m] := by
    calc sum m (before ++ (m - sum m (before ++ 0 :: after)) :: after)
        ≡ (before ++ (m - sum m (before ++ 0 :: after)) :: after).sum [MOD m] := sum_modEq _ _
      _ = (before ++ 0 :: after).sum + (m - sum m (before ++ 0 :: after)) := by
          simp only [List.sum_append, List.sum_cons]
          omega
      _ ≡ sum m (before ++ 0 :: after) + (m - sum m (before ++ 0 :: after)) [MOD m] :=
          (sum_modEq m _).symm.add_right _
      _ = m := Nat.add_sub_cancel' hle
  refine eq_of_modEq hsum ?_ ?_ hm le_rfl
  · -- the field was 0, so a word that is not 0 is still there
    apply sum_pos
    obtain ⟨w, hw, hw0⟩ := hpos
    refine ⟨w, ?_, hw0⟩
    simp only [List.mem_append, List.mem_cons] at hw ⊢
    rcases hw with hw | rfl | hw
    · exact Or.inl hw
    · exact absurd hw0 (lt_irrefl 0)
    · exact Or.inr (Or.inr hw)
  · apply sum_le
    rintro w hw
    simp only [List.mem_append, List.mem_cons] at hw hwords
    rcases hw with hw | rfl | hw
    · exact hwords w (Or.inl hw)
    · exact Nat.sub_le m _
    · exact hwords w (Or.inr (Or.inr hw))

end OnesComplement
