import Mathlib

/-! # Sums of counters

Counts kept per key add up to one count when the keys are distinct, and a sum of wrapping
counters is the sum of their values modulo their width.
-/

namespace Sums

variable {α β κ : Type*}

theorem countP_or_of_disjoint (l : List α) {p q : α → Bool}
    (h : ∀ a ∈ l, ¬ (p a = true ∧ q a = true)) :
    l.countP (fun a => p a || q a) = l.countP p + l.countP q := by
  induction l with
  | nil => rfl
  | cons a l ih =>
    have ih := ih fun b hb => h b (List.mem_cons_of_mem a hb)
    have ha := h a List.mem_cons_self
    simp only [List.countP_cons, ih]
    cases hp : p a <;> cases hq : q a <;> simp_all <;> omega

/-- Counts kept under distinct keys add up to the count of what any key matches. -/
theorem sum_countP (keyOf : α → κ) (key : β → κ) (l : List α) {es : List β}
    (hn : (es.map key).Nodup) {r : β → α → Bool} (hr : ∀ e a, r e a = true → keyOf a = key e) :
    (es.map fun e => l.countP (r e)).sum = l.countP fun a => es.any fun e => r e a := by
  induction es with
  | nil => simp
  | cons e es ih =>
    rw [List.map_cons, List.nodup_cons] at hn
    simp only [List.map_cons, List.sum_cons, List.any_cons, ih hn.2]
    refine (countP_or_of_disjoint l fun a _ ⟨he, ha⟩ => ?_).symm
    obtain ⟨e', he', hra⟩ := List.any_eq_true.mp ha
    exact hn.1 (List.mem_map.mpr ⟨e', he', (hr e' a hra).symm.trans (hr e a he)⟩)

theorem sum_le_of_forall₂ {R : α → α → Prop} {v : α → ℕ} (hle : ∀ a b, R a b → v a ≤ v b)
    {as bs : List α} (h : List.Forall₂ R as bs) : (as.map v).sum ≤ (bs.map v).sum := by
  apply List.Forall₂.sum_le_sum
  rw [List.forall₂_map_left_iff, List.forall₂_map_right_iff]
  exact h.imp hle

/-- If entries take every value between those of related ones, then sums over lists of related
entries do. The first entry takes as much as it can. -/
theorem exists_forall₂_sum_eq {R : α → α → Prop} {v : α → ℕ} (hle : ∀ a b, R a b → v a ≤ v b)
    (hmid : ∀ a b, R a b → ∀ m, v a ≤ m → m ≤ v b → ∃ c, R a c ∧ R c b ∧ v c = m)
    {as bs : List α} (h : List.Forall₂ R as bs) {m : ℕ} (hlo : (as.map v).sum ≤ m)
    (hhi : m ≤ (bs.map v).sum) :
    ∃ cs, List.Forall₂ R as cs ∧ List.Forall₂ R cs bs ∧ (cs.map v).sum = m := by
  induction h generalizing m with
  | nil => exact ⟨[], .nil, .nil, (Nat.le_zero.mp hhi).symm⟩
  | @cons a b as bs hab hrest ih =>
    rw [List.map_cons, List.sum_cons] at hlo hhi
    have hhead := hle a b hab
    have htail := sum_le_of_forall₂ hle hrest
    obtain ⟨c, hac, hcb, hc⟩ :=
      hmid a b hab (min (v b) (m - (as.map v).sum)) (by omega) (min_le_left _ _)
    obtain ⟨cs, hlow, hhigh, hcs⟩ := @ih (m - v c) (by omega) (by omega)
    refine ⟨c :: cs, .cons hac hlow, .cons hcb hhigh, ?_⟩
    rw [List.map_cons, List.sum_cons, hcs]
    omega

/-- Only the entries that are counted take part in such a sum. -/
theorem exists_forall₂_filter_sum_eq {R : α → α → Prop} {v : α → ℕ} {p : α → Bool}
    (hrefl : ∀ a, R a a) (hp : ∀ a b, R a b → p a = p b) (hle : ∀ a b, R a b → v a ≤ v b)
    (hmid : ∀ a b, R a b → ∀ m, v a ≤ m → m ≤ v b → ∃ c, R a c ∧ R c b ∧ v c = m)
    {as bs : List α} (h : List.Forall₂ R as bs) {m : ℕ} (hlo : ((as.filter p).map v).sum ≤ m)
    (hhi : m ≤ ((bs.filter p).map v).sum) :
    ∃ cs, List.Forall₂ R as cs ∧ List.Forall₂ R cs bs ∧ ((cs.filter p).map v).sum = m := by
  have hsum : ∀ l : List α, ((l.filter p).map v).sum =
      (l.map fun a => if p a then v a else 0).sum := by
    intro l
    rw [List.sum_map_ite]
    simp
  simp only [hsum] at hlo hhi ⊢
  refine exists_forall₂_sum_eq ?_ ?_ h hlo hhi
  · intro a b hab
    rw [hp a b hab]
    split
    · exact hle a b hab
    · exact le_rfl
  · intro a b hab m hlow hhigh
    rw [hp a b hab] at hlow
    by_cases hb : p b = true
    · rw [if_pos hb] at hlow hhigh
      obtain ⟨c, hac, hcb, hc⟩ := hmid a b hab m hlow hhigh
      exact ⟨c, hac, hcb, by rw [hp c b hcb, if_pos hb, hc]⟩
    · rw [if_neg hb] at hhigh
      refine ⟨a, hrefl a, hab, ?_⟩
      rw [hp a b hab, if_neg hb]
      exact (Nat.le_zero.mp hhigh).symm

theorem toNat_sum (l : List UInt32) : l.sum.toNat = (l.map UInt32.toNat).sum % 2 ^ 32 := by
  induction l with
  | nil => rfl
  | cons c l ih =>
    rw [List.sum_cons, UInt32.toNat_add, ih, List.map_cons, List.sum_cons, Nat.add_mod_mod]

theorem sum_ofNat (es : List β) (f : β → ℕ) :
    (es.map fun e => UInt32.ofNat (f e)).sum = UInt32.ofNat (es.map f).sum := by
  induction es with
  | nil => rfl
  | cons e es ih =>
    rw [List.map_cons, List.sum_cons, ih, List.map_cons, List.sum_cons, UInt32.ofNat_add]

/-- The counts of distinct keys add up to the number of values that are one of them. -/
theorem sum_count [DecidableEq κ] (l : List κ) {keys : List κ} (hn : keys.Nodup) :
    (keys.map l.count).sum = l.countP (· ∈ keys) := by
  have hkeys : (keys.map id).Nodup := by rwa [List.map_id]
  have hsum := sum_countP id id l hkeys (r := fun k a => a == k) fun _ _ h => eq_of_beq h
  refine hsum.trans (List.countP_congr fun a _ => ?_)
  rw [List.any_beq, List.contains_iff_mem, decide_eq_true_iff]

end Sums
