import KWatch.Pin.Effects

/-! # System calls that fail

A call can fail for reasons that the files do not show. A fault assignment says, given the calls
made so far, whether the next one fails and with which error; a failing call does nothing, except
that a line may be written in part. The removals that undo what the run itself did do not fail.
-/

namespace KWatch

open Prog

/-- The removals that undo: of a map once pinning has begun, of the owner file once it was opened
for writing, and of the pin directory. -/
def Sys.Undoes (hist : List Sys) : Sys → Prop
  | .unlinkPin _ => ∃ self m, .objPin self m ∈ hist
  | .unlinkOwnerPid => .fopenOwnerPid ∈ hist
  | .rmdirPin => True
  | _ => False

structure Faults where
  fails : List Sys → Sys → Bool
  errno : List Sys → Sys → Errno
  written : ℕ
  spares : ∀ hist c, c.Undoes hist → fails hist c = false

/-- The result of a call that fails. -/
def Sys.failed (e : Errno) : (c : Sys) → c.Result
  | .mkdir _ | .rmdirPin | .rmdirOwner | .unlinkPin _ | .objPin _ _ | .fopenOwnerPid
  | .unlinkOwnerPid | .readdirPin => .error e
  | .stat _ | .fprintfOwnerPid _ | .fcloseOwnerPid _ => false
  | .readOwnerPid | .readProcStat _ => none

/-- What a call that fails leaves behind. -/
def Faults.leaves (F : Faults) : Sys → Files → Files
  | .fprintfOwnerPid line, s | .fcloseOwnerPid line, s => s.fcloseOwnerPid (line.take F.written)
  | _, s => s

/-- The calls under a fault assignment, with the calls made so far. -/
def faultySys (F : Faults) : Handler Sys Sys.Result (List Sys × Files)
  | c, (hist, s) =>
    if F.fails hist c then (c.failed (F.errno hist c), hist ++ [c], F.leaves c s)
    else ((sys c s).1, hist ++ [c], (sys c s).2)

/-- The steps whose calls can fail. -/
def faultyPin (F : Faults) : Handler PinStep PinStep.Result (List Sys × Files) :=
  Prog.atomic (faultySys F) PinStep.calls

variable {F : Faults} {hist : List Sys} {s : Files}

/-! ### One call -/

theorem faultySys_of_fails {c : Sys} (h : F.fails hist c = true) : faultySys F c (hist, s) =
    (c.failed (F.errno hist c), hist ++ [c], F.leaves c s) := by
  simp only [faultySys, if_pos h]

theorem faultySys_of_spared {c : Sys} (h : F.fails hist c = false) :
    faultySys F c (hist, s) = ((sys c s).1, hist ++ [c], (sys c s).2) := by
  simp [faultySys, h]

/-- A call does what the files say, or it fails. -/
theorem faultySys_cases (F : Faults) (c : Sys) (hist : List Sys) (s : Files) :
    faultySys F c (hist, s) = ((sys c s).1, hist ++ [c], (sys c s).2) ∨
      ¬ c.Undoes hist ∧ faultySys F c (hist, s) =
        (c.failed (F.errno hist c), hist ++ [c], F.leaves c s) := by
  cases h : F.fails hist c with
  | false => exact .inl (faultySys_of_spared h)
  | true =>
    refine .inr ⟨fun hu => ?_, faultySys_of_fails h⟩
    rw [F.spares hist c hu] at h
    cases h

@[simp] theorem history_faultySys (c : Sys) (σ : List Sys × Files) :
    (faultySys F c σ).2.1 = σ.1 ++ [c] := by
  simp only [faultySys]
  split <;> rfl

/-! ### What calls keep under faults -/

/-- The calls that leave the owner file alone even when they fail. -/
def Sys.SparesOwner : Sys → Prop
  | .fopenOwnerPid | .fprintfOwnerPid _ | .fcloseOwnerPid _ | .unlinkOwnerPid => False
  | _ => True

theorem Sys.SparesOwner.leaves {c : Sys} (h : c.SparesOwner) : F.leaves c s = s := by
  cases c <;> first | rfl | exact h.elim

theorem pin_leaves (c : Sys) (s : Files) : (F.leaves c s).pin = s.pin := by
  cases c with
  | fprintfOwnerPid line => exact Files.pin_congr (s.pinDir_fcloseOwnerPid _)
  | fcloseOwnerPid line => exact Files.pin_congr (s.pinDir_fcloseOwnerPid _)
  | _ => rfl

theorem pin_faultySys {c : Sys} (hc : c.KeepsPins) (σ : List Sys × Files) :
    (faultySys F c σ).2.2.pin = σ.2.pin := by
  obtain ⟨hist, s⟩ := σ
  rcases faultySys_cases F c hist s with h | ⟨-, h⟩ <;> rw [h]
  · exact pin_sys hc s
  · exact pin_leaves c s

theorem ownerPid_faultySys {c : Sys} (hc : c.SparesOwner) (σ : List Sys × Files) :
    (faultySys F c σ).2.2.ownerPid = σ.2.ownerPid := by
  obtain ⟨hist, s⟩ := σ
  rcases faultySys_cases F c hist s with h | ⟨-, h⟩ <;> rw [h]
  · refine ownerPid_sys ?_ s
    cases c <;> trivial
  · exact congrArg Files.ownerPid hc.leaves

theorem pinDirExists_faultySys {c : Sys} (hc : c ≠ .rmdirPin) {σ : List Sys × Files}
    (h : σ.2.PinDirExists) : (faultySys F c σ).2.2.PinDirExists := by
  obtain ⟨hist, s⟩ := σ
  rcases faultySys_cases F c hist s with h' | ⟨-, h'⟩ <;> rw [h']
  · exact pinDirExists_sys hc h
  · cases c with
    | fprintfOwnerPid line => exact pinDirExists_sys (c := .fcloseOwnerPid _) (by simp) h
    | fcloseOwnerPid line => exact pinDirExists_sys (c := .fcloseOwnerPid _) (by simp) h
    | _ => exact h

/-- A call removes pins at most, unless it pins. -/
theorem pin_faultySys_or {c : Sys} (hc : ∀ o m, c ≠ .objPin o m) (σ : List Sys × Files) (m : Text) :
    (faultySys F c σ).2.2.pin m = σ.2.pin m ∨ (faultySys F c σ).2.2.pin m = none := by
  cases c with
  | objPin o m' => exact absurd rfl (hc o m')
  | unlinkPin m' =>
    obtain ⟨hist, s⟩ := σ
    rcases faultySys_cases F (.unlinkPin m') hist s with h | ⟨-, h⟩ <;> rw [h]
    · exact pin_unlinkPin_or s m' m
    · exact .inl rfl
  | _ => exact .inl (congrFun (pin_faultySys (by trivial) σ) m)

/-! ### Programs -/

theorem history_extends {α : Type} (p : SysProg α) (σ : List Sys × Files) :
    σ.1 <+: (p.run (faultySys F) σ).2.1 := by
  have hcall : ∀ c, ∀ τ : List Sys × Files, τ.1 <+: (faultySys F c τ).2.1 := by
    intro c τ
    rw [history_faultySys]
    exact List.prefix_append _ _
  exact (uses_any p).run_rel (R := fun σ τ : List Sys × Files => σ.1 <+: τ.1)
    (fun σ => List.prefix_refl σ.1) (fun _ _ _ => List.IsPrefix.trans) (fun c _ => hcall c) σ

/-- A program none of whose calls fails runs as the files say. -/
theorem run_faultySys_of_spared {ok : Sys → Prop} {α : Type} {p : SysProg α} (hp : Uses ok p)
    (hspared : ∀ hist', hist <+: hist' → ∀ c, ok c → F.fails hist' c = false) (s : Files) :
    (p.run (faultySys F) (hist, s)).1 = (p.run sys s).1 ∧
      (p.run (faultySys F) (hist, s)).2.2 = (p.run sys s).2 := by
  induction p generalizing hist s with
  | ret a => exact ⟨rfl, rfl⟩
  | call c k ih =>
    have hcall := faultySys_of_spared (s := s) (hspared hist (List.prefix_refl _) c hp.1)
    rw [run_call, run_call, hcall]
    exact ih _ (hp.2 _) (fun hist' hpre => hspared hist' ((List.prefix_append _ _).trans hpre)) _

end KWatch
