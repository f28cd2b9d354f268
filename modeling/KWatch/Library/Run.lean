import Mathlib

/-! # Runs of a partial step function

A run takes one step after another and stops being a run at a step that is not enabled. An
invariant that every step under a condition keeps holds after every run whose steps all meet the
condition, each in the state in which it is taken.
-/

namespace Run

variable {σ α : Type*}

/-- The state after steps, if each of them was enabled. -/
def exec (step : σ → α → Option σ) (s : σ) (as : List α) : Option σ := as.foldlM step s

/-- Every step meets a condition in the state in which it is taken. -/
def Meets (step : σ → α → Option σ) (ok : σ → α → Prop) : σ → List α → Prop
  | _, [] => True
  | s, a :: as => ok s a ∧ ∀ s', step s a = some s' → Meets step ok s' as

variable {step : σ → α → Option σ} {ok : σ → α → Prop} {P : σ → Prop}

@[simp] theorem exec_nil (s : σ) : exec step s [] = some s := rfl

theorem exec_cons (s : σ) (a : α) (as : List α) :
    exec step s (a :: as) = (step s a).bind fun s' => exec step s' as := by
  simp [exec]

theorem exec_append (s : σ) (as : List α) (a : α) :
    exec step s (as ++ [a]) = (exec step s as).bind fun s' => step s' a := by
  simp [exec]

/-- A run goes on from where another one has ended. -/
theorem exec_trans {s t u : σ} {as bs : List α} (hst : exec step s as = some t)
    (htu : exec step t bs = some u) : exec step s (as ++ bs) = some u := by
  rw [exec, List.foldlM_append]
  exact Option.bind_eq_some_iff.mpr ⟨t, hst, htu⟩

/-- The invariant rule for runs under a condition on their steps. -/
theorem invariant (hstep : ∀ s a s', P s → ok s a → step s a = some s' → P s') {s s' : σ}
    {as : List α} (hs : P s) (hok : Meets step ok s as) (hrun : exec step s as = some s') :
    P s' := by
  induction as generalizing s with
  | nil => cases hrun; exact hs
  | cons a as ih =>
    rw [exec_cons, Option.bind_eq_some_iff] at hrun
    obtain ⟨s₁, h₁, hrun⟩ := hrun
    exact ih (hstep s a s₁ hs hok.1 h₁) (hok.2 s₁ h₁) hrun

theorem meets_append {s : σ} {as : List α} {a : α} :
    Meets step ok s (as ++ [a]) ↔
      Meets step ok s as ∧ ∀ s', exec step s as = some s' → ok s' a := by
  induction as generalizing s with
  | nil => simp [Meets]
  | cons b as ih =>
    simp only [List.cons_append, Meets, ih, exec_cons, Option.bind_eq_some_iff]
    constructor
    · rintro ⟨hb, h⟩
      exact ⟨⟨hb, fun s' hs => (h s' hs).1⟩, fun s' ⟨s₁, hs, hrun⟩ => (h s₁ hs).2 s' hrun⟩
    · rintro ⟨⟨hb, h⟩, hlast⟩
      exact ⟨hb, fun s' hs => ⟨h s' hs, fun s₁ hrun => hlast s₁ ⟨s', hs, hrun⟩⟩⟩

instance decidableMeets [∀ s a, Decidable (ok s a)] :
    ∀ s as, Decidable (Meets step ok s as)
  | _, [] => .isTrue trivial
  | s, a :: as =>
    match h : step s a with
    | none => decidable_of_iff (ok s a) (by simp [Meets, h])
    | some s' =>
      have := decidableMeets s' as
      decidable_of_iff (ok s a ∧ Meets step ok s' as) (by simp [Meets, h])

/-! ### Sums over a run -/

/-- The sum of a weight over the steps of a run. -/
def tally (step : σ → α → Option σ) (w : σ → α → ℕ) : σ → List α → ℕ
  | _, [] => 0
  | s, a :: as => w s a + ((step s a).map fun s' => tally step w s' as).getD 0

/-- The conservation rule: what every step moves from a quantity into its weight, up to a modulus,
a whole run moves into the sum of the weights. The quantity may depend on more than the state, as
long as each step can say how that goes on. -/
theorem conserved {γ : Type*} {I : σ → γ → Prop} {q : σ → γ → ℕ} {w : σ → α → ℕ} {n : ℕ}
    (hstep : ∀ s g a s', I s g → ok s a → step s a = some s' →
      ∃ g', I s' g' ∧ q s' g' + w s a ≡ q s g [MOD n]) {s s' : σ} {g : γ} {as : List α}
    (hs : I s g) (hok : Meets step ok s as) (hrun : exec step s as = some s') :
    ∃ g', I s' g' ∧ q s' g' + tally step w s as ≡ q s g [MOD n] := by
  induction as generalizing s g with
  | nil => cases hrun; exact ⟨g, hs, Nat.ModEq.refl _⟩
  | cons a as ih =>
    rw [exec_cons, Option.bind_eq_some_iff] at hrun
    obtain ⟨s₁, h₁, hrun⟩ := hrun
    obtain ⟨g₁, hs₁, hq₁⟩ := hstep s g a s₁ hs hok.1 h₁
    obtain ⟨g', hs', hq'⟩ := ih hs₁ (hok.2 s₁ h₁) hrun
    refine ⟨g', hs', ?_⟩
    have htally : tally step w s (a :: as) = w s a + tally step w s₁ as := by
      simp [tally, h₁]
    calc q s' g' + tally step w s (a :: as)
        = q s' g' + tally step w s₁ as + w s a := by rw [htally]; omega
      _ ≡ q s₁ g₁ + w s a [MOD n] := hq'.add_right _
      _ ≡ q s g [MOD n] := hq₁

theorem tally_eq_zero {w : σ → α → ℕ} (hw : ∀ s a, ok s a → w s a = 0) {s : σ} {as : List α}
    (hok : Meets step ok s as) : tally step w s as = 0 := by
  induction as generalizing s with
  | nil => rfl
  | cons a as ih =>
    rw [tally, hw s a hok.1]
    cases h : step s a with
    | none => rfl
    | some s' => simpa using ih (hok.2 s' h)

theorem meets_of_forall {p : α → Prop} (s : σ) {as : List α} (h : ∀ a ∈ as, p a) :
    Meets step (fun _ a => p a) s as := by
  induction as generalizing s with
  | nil => trivial
  | cons a as ih =>
    exact ⟨h a (by simp), fun s' _ => ih s' fun b hb => h b (List.mem_cons_of_mem a hb)⟩

theorem meets_true (s : σ) (as : List α) : Meets step (fun _ _ => True) s as := by
  induction as generalizing s with
  | nil => trivial
  | cons a as ih => exact ⟨trivial, fun s' _ => ih s'⟩

end Run
