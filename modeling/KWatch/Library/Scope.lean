import KWatch.Library.Prog

/-! # Owners of resources

A body with an owner around it: when the body returns, the owner's destructor runs on the value
that is returned. A body that still waits for its environment returns nothing, and its owner goes
on living.
-/

namespace Prog

variable {Op : Type} {Res : Op → Type} {σ α β : Type} {h : Handler Op Res σ}
  {waiting waiting' : σ → Prop} {done done' : α → σ → Prop} {s : σ}

/-- Run the destructor when the body returns. -/
def owning (release : α → Prog Op Res Unit) (body : Prog Op Res (Option α)) :
    Prog Op Res (Option α) := do
  match ← body with
  | none => return none
  | some a =>
    release a
    return some a

/-- What holds while a program waits and what holds when it has returned. -/
def Outcome (waiting : σ → Prop) (done : α → σ → Prop) : Option α → σ → Prop
  | none, s => waiting s
  | some a, s => done a s

@[simp] theorem outcome_none : Outcome waiting done none s ↔ waiting s := Iff.rfl

@[simp] theorem outcome_some {a : α} : Outcome waiting done (some a) s ↔ done a s := Iff.rfl

theorem Outcome.mono (hw : ∀ s, waiting s → waiting' s) (hd : ∀ a s, done a s → done' a s)
    {r : Option α} (hr : Outcome waiting done r s) : Outcome waiting' done' r s := by
  cases r with
  | none => exact hw s hr
  | some a => exact hd a s hr

/-- The destructor starts where the body has ended, and what waits stays as it is. -/
theorem Ensures.owning {release : α → Prog Op Res Unit} {body : Prog Op Res (Option α)}
    (hbody : Ensures h (Outcome waiting fun a t => Ensures h (fun _ => done a) (release a) t)
      body s) :
    Ensures h (Outcome waiting done) (owning release body) s := by
  apply hbody.bind
  rintro r t hr
  cases r with
  | none => exact hr
  | some a =>
    have hrelease : Ensures h (fun _ => done a) (release a) t := hr
    exact hrelease.bind fun _ _ hu => hu

end Prog
