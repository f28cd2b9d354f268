import KWatch.Library.Run

/-! # Programs that make calls

A program makes calls one after another, each of which may depend on the results of the earlier
ones, and then returns. A handler gives the calls their meaning on a state. A program may stop
after any of its calls, and several programs may take turns on one state.
-/

/-- Calls whose results decide how to go on, and a result at the end. -/
inductive Prog (Op : Type) (Res : Op → Type) (α : Type)
  | ret (a : α)
  | call (op : Op) (k : Res op → Prog Op Res α)

/-- The meaning of the calls on a state. -/
abbrev Handler (Op : Type) (Res : Op → Type) (σ : Type) := (op : Op) → σ → Res op × σ

namespace Prog

variable {Op Op' : Type} {Res : Op → Type} {Res' : Op' → Type} {σ α β : Type}

def bind : Prog Op Res α → (α → Prog Op Res β) → Prog Op Res β
  | ret a, f => f a
  | call op k, f => call op fun r => (k r).bind f

instance : Monad (Prog Op Res) where
  pure := ret
  bind := bind

/-- One call. -/
def step (op : Op) : Prog Op Res (Res op) := call op ret

@[simp] theorem pure_eq (a : α) : (pure a : Prog Op Res α) = ret a := rfl

@[simp] theorem ret_bind (a : α) (f : α → Prog Op Res β) : (ret a >>= f) = f a := rfl

@[simp] theorem call_bind (op : Op) (k : Res op → Prog Op Res α) (f : α → Prog Op Res β) :
    (call op k >>= f) = call op fun r => k r >>= f := rfl

@[simp] theorem step_bind (op : Op) (f : Res op → Prog Op Res β) :
    (step op >>= f) = call op f := rfl

theorem bind_assoc' {γ : Type} (p : Prog Op Res α) (f : α → Prog Op Res β)
    (g : β → Prog Op Res γ) : (p >>= f) >>= g = p >>= fun a => f a >>= g := by
  induction p with
  | ret a => rfl
  | call op k ih => exact congrArg (call op) (funext ih)

/-! ### Complete runs -/

section Handlers

variable (h : Handler Op Res σ)

def run : Prog Op Res α → σ → α × σ
  | ret a, s => (a, s)
  | call op k, s => (k (h op s).1).run (h op s).2

/-- The state after at most so many calls. -/
def runFor : ℕ → Prog Op Res α → σ → σ
  | _, ret _, s => s
  | 0, call _ _, s => s
  | n + 1, call op k, s => runFor n (k (h op s).1) (h op s).2

/-- A property of every state a program passes through. -/
def Always (P : σ → Prop) : Prog Op Res α → σ → Prop
  | ret _, s => P s
  | call op k, s => P s ∧ Always P (k (h op s).1) (h op s).2

variable {h} {P : σ → Prop}

@[simp] theorem run_ret (a : α) (s : σ) : (ret a : Prog Op Res α).run h s = (a, s) := rfl

@[simp] theorem run_call (op : Op) (k : Res op → Prog Op Res α) (s : σ) :
    (call op k).run h s = (k (h op s).1).run h (h op s).2 := rfl

@[simp] theorem run_step (op : Op) (s : σ) : (step op : Prog Op Res _).run h s = h op s := rfl

@[simp] theorem run_bind (p : Prog Op Res α) (f : α → Prog Op Res β) (s : σ) :
    (p >>= f).run h s = (f (p.run h s).1).run h (p.run h s).2 := by
  induction p generalizing s with
  | ret a => rfl
  | call op k ih => exact ih _ _

theorem Always.start {p : Prog Op Res α} {s : σ} (hp : Always h P p s) : P s := by
  cases p with
  | ret a => exact hp
  | call op k => exact hp.1

theorem Always.end {p : Prog Op Res α} {s : σ} (hp : Always h P p s) : P (p.run h s).2 := by
  induction p generalizing s with
  | ret a => exact hp
  | call op k ih => exact ih _ hp.2

theorem Always.runFor {p : Prog Op Res α} {s : σ} (hp : Always h P p s) (n : ℕ) :
    P (runFor h n p s) := by
  induction p generalizing s n with
  | ret a => cases n <;> exact hp
  | call op k ih =>
    cases n with
    | zero => exact hp.1
    | succ n => exact ih _ hp.2 n

theorem Always.mono {Q : σ → Prop} (hPQ : ∀ s, P s → Q s) {p : Prog Op Res α} {s : σ}
    (hp : Always h P p s) : Always h Q p s := by
  induction p generalizing s with
  | ret a => exact hPQ _ hp
  | call op k ih => exact ⟨hPQ _ hp.1, ih _ hp.2⟩

theorem Always.and {Q : σ → Prop} {p : Prog Op Res α} {s : σ} (hp : Always h P p s)
    (hq : Always h Q p s) : Always h (fun s => P s ∧ Q s) p s := by
  induction p generalizing s with
  | ret a => exact ⟨hp, hq⟩
  | call op k ih => exact ⟨⟨hp.1, hq.1⟩, ih _ hp.2 hq.2⟩

theorem always_bind {p : Prog Op Res α} {f : α → Prog Op Res β} {s : σ} (hp : Always h P p s)
    (hf : Always h P (f (p.run h s).1) (p.run h s).2) : Always h P (p >>= f) s := by
  induction p generalizing s with
  | ret a => exact hf
  | call op k ih => exact ⟨hp.1, ih _ hp.2 hf⟩

variable (h) in
/-- A postcondition of the complete run. -/
def Ensures (post : α → σ → Prop) (p : Prog Op Res α) (s : σ) : Prop :=
  post (p.run h s).1 (p.run h s).2

section Ensures

variable {post post' : α → σ → Prop} {s : σ}

@[simp] theorem ensures_ret (a : α) : Ensures h post (ret a) s ↔ post a s := Iff.rfl

theorem ensures_call {op : Op} {k : Res op → Prog Op Res α} :
    Ensures h post (call op k) s ↔ Ensures h post (k (h op s).1) (h op s).2 := Iff.rfl

theorem Ensures.mono {p : Prog Op Res α} (hp : Ensures h post p s)
    (himp : ∀ a t, post a t → post' a t) : Ensures h post' p s := himp _ _ hp

theorem Ensures.and {p : Prog Op Res α} (hp : Ensures h post p s) (hp' : Ensures h post' p s) :
    Ensures h (fun a t => post a t ∧ post' a t) p s := ⟨hp, hp'⟩

/-- The rule of sequencing. -/
theorem Ensures.bind {p : Prog Op Res α} {f : α → Prog Op Res β} {post₂ : β → σ → Prop}
    (hp : Ensures h post p s) (hf : ∀ a t, post a t → Ensures h post₂ (f a) t) :
    Ensures h post₂ (p >>= f) s := by
  rw [Ensures, run_bind]
  exact hf _ _ hp

end Ensures

end Handlers

/-! ### Limited programs -/

/-- Every call the program may make, whatever the results, is of a kind. -/
def Uses (ok : Op → Prop) : Prog Op Res α → Prop
  | ret _ => True
  | call op k => ok op ∧ ∀ r, Uses ok (k r)

section Limited

variable {h : Handler Op Res σ} {P : σ → Prop} {ok : Op → Prop}

@[simp] theorem uses_ret (a : α) : Uses ok (ret a : Prog Op Res α) := trivial

@[simp] theorem uses_call {op : Op} {k : Res op → Prog Op Res α} :
    Uses ok (call op k) ↔ ok op ∧ ∀ r, Uses ok (k r) := Iff.rfl

@[simp] theorem uses_step {op : Op} : Uses ok (step op : Prog Op Res _) ↔ ok op := by
  simp [step]

theorem Uses.bind {p : Prog Op Res α} {f : α → Prog Op Res β} (hp : Uses ok p)
    (hf : ∀ a, Uses ok (f a)) : Uses ok (p >>= f) := by
  induction p with
  | ret a => exact hf a
  | call op k ih => exact ⟨hp.1, fun r => ih r (hp.2 r)⟩

theorem Uses.mono {ok' : Op → Prop} (h : ∀ op, ok op → ok' op) {p : Prog Op Res α}
    (hp : Uses ok p) : Uses ok' p := by
  induction p with
  | ret a => trivial
  | call op k ih => exact ⟨h op hp.1, fun r => ih r (hp.2 r)⟩

theorem uses_any (p : Prog Op Res α) : Uses (fun _ => True) p := by
  induction p with
  | ret a => trivial
  | call op k ih => exact ⟨trivial, ih⟩

/-- A property that the calls of a kind keep holds throughout a program limited to them. -/
theorem Uses.always (hkeep : ∀ op, ok op → ∀ s, P s → P (h op s).2) {p : Prog Op Res α}
    (hp : Uses ok p) {s : σ} (hs : P s) : Always h P p s := by
  induction p generalizing s with
  | ret a => exact hs
  | call op k ih => exact ⟨hs, ih _ (hp.2 _) (hkeep op hp.1 s hs)⟩

/-- What the calls of a kind leave alone, a program limited to them leaves alone. -/
theorem Uses.run_eq {γ : Type*} {obs : σ → γ} (hkeep : ∀ op, ok op → ∀ s, obs (h op s).2 = obs s)
    {p : Prog Op Res α} (hp : Uses ok p) (s : σ) : obs (p.run h s).2 = obs s :=
  (hp.always (P := fun t => obs t = obs s) (fun op ho t ht => (hkeep op ho t).trans ht) rfl).end

/-- A run relates its end to its start when every call does so to its own. -/
theorem Uses.run_rel {R : σ → σ → Prop} (hrefl : ∀ s, R s s)
    (htrans : ∀ s t u, R s t → R t u → R s u) (hkeep : ∀ op, ok op → ∀ s, R s (h op s).2)
    {p : Prog Op Res α} (hp : Uses ok p) (s : σ) : R s (p.run h s).2 :=
  (hp.always (P := R s) (fun op ho t ht => htrans s t _ ht (hkeep op ho t)) (hrefl s)).end

end Limited

/-! ### The calls of a run -/

section Calls

variable (h : Handler Op Res σ)

/-- The calls a complete run makes, in order. -/
def calls : Prog Op Res α → σ → List Op
  | ret _, _ => []
  | call op k, s => op :: (k (h op s).1).calls (h op s).2

variable {h}

@[simp] theorem calls_ret (a : α) (s : σ) : (ret a : Prog Op Res α).calls h s = [] := rfl

@[simp] theorem calls_call (op : Op) (k : Res op → Prog Op Res α) (s : σ) :
    (call op k).calls h s = op :: (k (h op s).1).calls h (h op s).2 := rfl

@[simp] theorem calls_bind (p : Prog Op Res α) (f : α → Prog Op Res β) (s : σ) :
    (p >>= f).calls h s = p.calls h s ++ (f (p.run h s).1).calls h (p.run h s).2 := by
  induction p generalizing s with
  | ret a => rfl
  | call op k ih => exact congrArg (op :: ·) (ih _ _)

theorem Uses.of_mem_calls {ok : Op → Prop} {p : Prog Op Res α} (hp : Uses ok p) {s : σ} {op : Op}
    (hm : op ∈ p.calls h s) : ok op := by
  induction p generalizing s with
  | ret a => cases hm
  | call op' k ih =>
    rcases List.mem_cons.mp hm with rfl | hm
    · exact hp.1
    · exact ih _ (hp.2 _) hm

end Calls

/-! ### The number of calls -/

section Count

variable (h : Handler Op Res σ)

def count : Prog Op Res α → σ → ℕ
  | ret _, _ => 0
  | call op k, s => (k (h op s).1).count (h op s).2 + 1

variable {h}

theorem runFor_bind_of_lt {p : Prog Op Res α} {f : α → Prog Op Res β} {s : σ} {n : ℕ}
    (hn : n < p.count h s) : runFor h n (p >>= f) s = runFor h n p s := by
  induction p generalizing s n with
  | ret a => cases hn
  | call op k ih =>
    cases n with
    | zero => rfl
    | succ n => exact ih _ (Nat.succ_lt_succ_iff.mp hn)

theorem runFor_bind_add {p : Prog Op Res α} {f : α → Prog Op Res β} {s : σ} (n : ℕ) :
    runFor h (p.count h s + n) (p >>= f) s =
      runFor h n (f (p.run h s).1) (p.run h s).2 := by
  induction p generalizing s with
  | ret a => simp [count]
  | call op k ih =>
    rw [count, Nat.add_right_comm]
    exact ih _

end Count

/-! ### Refined calls -/

/-- Replace every call by a program of its own. -/
def expand (e : (op : Op) → Prog Op' Res' (Res op)) : Prog Op Res α → Prog Op' Res' α
  | ret a => ret a
  | call op k => e op >>= fun r => (k r).expand e

/-- The handler under which a call is its whole program at once. -/
def atomic (h : Handler Op' Res' σ) (e : (op : Op) → Prog Op' Res' (Res op)) : Handler Op Res σ :=
  fun op s => (e op).run h s

variable {h : Handler Op' Res' σ} {e : (op : Op) → Prog Op' Res' (Res op)} {P : σ → Prop}

/-- A complete run does not depend on the grain of the calls. -/
theorem run_expand (p : Prog Op Res α) (s : σ) :
    (p.expand e).run h s = p.run (atomic h e) s := by
  induction p generalizing s with
  | ret a => rfl
  | call op k ih => rw [expand, run_bind, run_call, ih]; rfl

theorem expand_bind (p : Prog Op Res α) (f : α → Prog Op Res β) :
    (p >>= f).expand e = p.expand e >>= fun a => (f a).expand e := by
  induction p with
  | ret a => rfl
  | call op k ih =>
    simp only [call_bind, expand, ih]
    exact (bind_assoc' _ _ _).symm

/-- Calls that work on a part of the state run as on that part alone. -/
theorem run_expand_part {τ : Type} {g : Handler Op Res τ} (get : σ → τ) (put : τ → σ → σ)
    (hget : ∀ t s, get (put t s) = t) (hput : ∀ s, put (get s) s = s)
    (hlast : ∀ t t' s, put t' (put t s) = put t' s)
    (hcall : ∀ op s, (e op).run h s = ((g op (get s)).1, put (g op (get s)).2 s))
    (p : Prog Op Res α) (s : σ) :
    (p.expand e).run h s = ((p.run g (get s)).1, put (p.run g (get s)).2 s) := by
  induction p generalizing s with
  | ret a => rw [expand, run_ret, run_ret, hput]
  | call op k ih => rw [expand, run_bind, hcall, ih, hget, hlast, run_call]

/-- A property throughout the programs of the calls holds throughout the expansion. -/
theorem Uses.always_expand {ok : Op → Prop}
    (hkeep : ∀ op, ok op → ∀ s, P s → Always h P (e op) s) {p : Prog Op Res α}
    (hp : Uses ok p) {s : σ} (hs : P s) : Always h P (p.expand e) s := by
  induction p generalizing s with
  | ret a => exact hs
  | call op k ih =>
    exact always_bind (hkeep op hp.1 s hs) (ih _ (hp.2 _) (hkeep op hp.1 s hs).end)

end Prog

/-! ### Programs side by side -/

/-- The programs that remain, and the state they share. -/
structure Config (ι Op : Type) (Res : Op → Type) (σ α : Type) where
  progs : ι → Prog Op Res α
  shared : σ

namespace Config

variable {ι Op : Type} {Res : Op → Type} {σ α : Type} [DecidableEq ι]

/-- One call of one program; a program that has returned makes no call. -/
def step (h : Handler Op Res σ) (c : Config ι Op Res σ α) (i : ι) : Option (Config ι Op Res σ α) :=
  match c.progs i with
  | .ret _ => none
  | .call op k => some ⟨Function.update c.progs i (k (h op c.shared).1), (h op c.shared).2⟩

/-- A condition on the calls, as a condition on the steps. -/
def CallMeets (ok : ι → Op → σ → Prop) (c : Config ι Op Res σ α) (i : ι) : Prop :=
  match c.progs i with
  | .ret _ => True
  | .call op _ => ok i op c.shared

instance decidableCallMeets {ok : ι → Op → σ → Prop} [∀ i op s, Decidable (ok i op s)]
    (c : Config ι Op Res σ α) (i : ι) : Decidable (CallMeets ok c i) := by
  unfold CallMeets
  split <;> infer_instance

theorem meets_any (h : Handler Op Res σ) (c : Config ι Op Res σ α) (sched : List ι) :
    Run.Meets (step h) (CallMeets fun _ _ _ => True) c sched := by
  induction sched generalizing c with
  | nil => trivial
  | cons i sched ih =>
    refine ⟨?_, fun c' _ => ih c'⟩
    unfold CallMeets
    split <;> trivial

/-- The program meets its postcondition, and its calls their guarantee, whatever the other
programs do to the state between its calls within the rely. -/
def Outline (h : Handler Op Res σ) (ok : Op → σ → Prop) (rely guar : σ → σ → Prop)
    (post : α → σ → Prop) : Prog Op Res α → σ → Prop
  | .ret a, s => ∀ s', rely s s' → post a s'
  | .call op k, s => ∀ s', rely s s' → ok op s' →
      guar s' (h op s').2 ∧ Outline h ok rely guar post (k (h op s').1) (h op s').2

section Rules

variable {h : Handler Op Res σ} {ok : Op → σ → Prop} {rely guar : σ → σ → Prop}
  {post : α → σ → Prop}

/-- An outline survives the steps of the others. -/
theorem Outline.stable (htrans : ∀ s t u, rely s t → rely t u → rely s u)
    {p : Prog Op Res α} {s t : σ} (hp : Outline h ok rely guar post p s) (hst : rely s t) :
    Outline h ok rely guar post p t := by
  cases p with
  | ret a => exact fun u hu => hp u (htrans s t u hst hu)
  | call op k => exact fun u hu => hp u (htrans s t u hst hu)

/-- A returned program meets its postcondition. -/
theorem Outline.returned (hrefl : ∀ s, rely s s) {a : α} {s : σ}
    (hp : Outline h ok rely guar post (.ret a) s) : post a s := hp s (hrefl s)

theorem Outline.mono {post' : α → σ → Prop} {p : Prog Op Res α} {s : σ}
    (hp : Outline h ok rely guar post p s) (himp : ∀ a s, post a s → post' a s) :
    Outline h ok rely guar post' p s := by
  induction p generalizing s with
  | ret a => exact fun t ht => himp a t (hp t ht)
  | call op k ih => exact fun t hst ht => ⟨(hp t hst ht).1, ih _ (hp t hst ht).2⟩

theorem Outline.bind {β : Type} {post' : β → σ → Prop} (hrefl : ∀ s, rely s s)
    {p : Prog Op Res α} {f : α → Prog Op Res β} {s : σ} (hp : Outline h ok rely guar post p s)
    (hf : ∀ a s, post a s → Outline h ok rely guar post' (f a) s) :
    Outline h ok rely guar post' (p >>= f) s := by
  induction p generalizing s with
  | ret a => exact hf a s (hp s (hrefl s))
  | call op k ih => exact fun t hst ht => ⟨(hp t hst ht).1, ih _ (hp t hst ht).2⟩

theorem outline_step_bind {op : Op} {f : Res op → Prog Op Res α} {s : σ}
    (hf : ∀ t, rely s t → ok op t →
      guar t (h op t).2 ∧ Outline h ok rely guar post (f (h op t).1) (h op t).2) :
    Outline h ok rely guar post (Prog.step op >>= f) s := hf

/-- A program whose calls keep an invariant and their guarantee wherever they are made. -/
theorem outline_of_uses {kind : Op → Prop} {I : σ → Prop}
    (hrely : ∀ s t, I s → rely s t → I t)
    (hkeep : ∀ op, kind op → ∀ s, I s → ok op s → guar s (h op s).2 ∧ I (h op s).2)
    {p : Prog Op Res α} (hp : Prog.Uses kind p) {s : σ} (hs : I s) :
    Outline h ok rely guar (fun _ t => I t) p s := by
  induction p generalizing s with
  | ret a => exact fun t ht => hrely s t hs ht
  | call op k ih =>
    intro t hst ht
    obtain ⟨hg, hI⟩ := hkeep op hp.1 t (hrely s t hs hst) ht
    exact ⟨hg, ih _ (hp.2 _) hI⟩

/-- Outlines compose when the guarantee of each program is within the rely of the others. -/
theorem outlines_of_exec {h : Handler Op Res σ} {ok : ι → Op → σ → Prop}
    {rely guar : ι → σ → σ → Prop} {post : ι → α → σ → Prop} (hrefl : ∀ i s, rely i s s)
    (htrans : ∀ i s t u, rely i s t → rely i t u → rely i s u)
    (hguar : ∀ i j, i ≠ j → ∀ s t, guar i s t → rely j s t) {c c' : Config ι Op Res σ α}
    {sched : List ι}
    (hc : ∀ i, Outline h (ok i) (rely i) (guar i) (post i) (c.progs i) c.shared)
    (hok : Run.Meets (step h) (CallMeets ok) c sched)
    (hrun : Run.exec (step h) c sched = some c') :
    ∀ i, Outline h (ok i) (rely i) (guar i) (post i) (c'.progs i) c'.shared := by
  refine Run.invariant (P := fun c : Config ι Op Res σ α =>
    ∀ i, Outline h (ok i) (rely i) (guar i) (post i) (c.progs i) c.shared) ?_ hc hok hrun
  intro c i c' hc hok hstep j
  have hi := hc i
  simp only [step, CallMeets] at hstep hok
  cases hp : c.progs i with
  | ret a => simp [hp] at hstep
  | call op k =>
    simp only [hp, Option.some.injEq] at hstep hok
    subst hstep
    rw [hp] at hi
    obtain ⟨hg, hk⟩ := hi c.shared (hrefl i _) hok
    by_cases hij : j = i
    · subst hij
      simpa using hk
    · simp only [Function.update_of_ne hij]
      exact (hc j).stable (htrans j) (hguar i j (Ne.symm hij) _ _ hg)

end Rules

end Config
