import KWatch.Library.Run

/-! # Owned descriptors

A wrapper owns the descriptor that it holds and closes it when it goes out of scope. Wrappers are
built, moved, reset, released and destroyed in any order while the code around them opens and
closes descriptors of its own, so a number may come back after it was closed. Every handover of a
descriptor to a wrapper ends in one close, or in one release.
-/

namespace KWatch

structure UniqueFd where
  fd : ℤ
deriving Repr, DecidableEq

def UniqueFd.isOpenFd (value : ℤ) : Bool := 0 ≤ value

/-- What happens to a descriptor: it is handed to a wrapper, closed by one, or given back. -/
inductive FdEvent
  | handed (d : ℤ)
  | closed (d : ℤ)
  | released (d : ℤ)
deriving Repr, DecidableEq

/-- The descriptor of an event. -/
def FdEvent.fd : FdEvent → ℤ
  | handed d => d
  | closed d => d
  | released d => d

/-- The wrappers that are alive, the descriptors that are open, and what has happened so far. -/
structure FdWorld (W : Type*) where
  wrapper : W → Option UniqueFd
  isOpen : ℤ → Bool
  log : List FdEvent

/-- The operations of wrappers, and the descriptors that others open and close. -/
inductive FdOp (W : Type*)
  | construct (w : W) (f : ℤ)
  | moveConstruct (w other : W)
  | moveAssign (w other : W)
  | reset (w : W) (f : ℤ)
  | release (w : W)
  | destroy (w : W)
  | opened (d : ℤ)
  | closedElsewhere (d : ℤ)

namespace FdWorld

variable {W : Type*} [DecidableEq W]

/-- Nothing is alive and nothing is open. -/
def init : FdWorld W := ⟨fun _ => none, fun _ => false, []⟩

def set (s : FdWorld W) (w : W) (u : Option UniqueFd) : FdWorld W :=
  { s with wrapper := Function.update s.wrapper w u }

/-- A wrapper calls `close`. -/
def close (s : FdWorld W) (d : ℤ) : FdWorld W :=
  { s with isOpen := Function.update s.isOpen d false, log := s.log ++ [.closed d] }

/-- `if (is_open_fd(fd)) close(fd);` -/
def closeIfOpen (s : FdWorld W) (d : ℤ) : FdWorld W :=
  if UniqueFd.isOpenFd d then s.close d else s

/-- A descriptor is handed to a wrapper. -/
def hand (s : FdWorld W) (d : ℤ) : FdWorld W :=
  if UniqueFd.isOpenFd d then { s with log := s.log ++ [.handed d] } else s

/-- A descriptor is given back to the caller. -/
def giveBack (s : FdWorld W) (d : ℤ) : FdWorld W :=
  if UniqueFd.isOpenFd d then { s with log := s.log ++ [.released d] } else s

/-- An operation on wrappers that exist, or on a new one. -/
def step (s : FdWorld W) : FdOp W → Option (FdWorld W)
  | .construct w f =>
    match s.wrapper w with
    | none => some ((s.hand f).set w (some ⟨f⟩))
    | some _ => none
  | .moveConstruct w other =>
    match s.wrapper w, s.wrapper other with
    | none, some u => some ((s.set w (some ⟨u.fd⟩)).set other (some ⟨-1⟩))
    | _, _ => none
  | .moveAssign w other =>
    match s.wrapper w, s.wrapper other with
    | some u, some v =>
      if w ≠ other then
        some (((s.closeIfOpen u.fd).set w (some ⟨v.fd⟩)).set other (some ⟨-1⟩))
      else
        some s
    | _, _ => none
  | .reset w f =>
    match s.wrapper w with
    | some u => some (((s.closeIfOpen u.fd).hand f).set w (some ⟨f⟩))
    | none => none
  | .release w =>
    match s.wrapper w with
    | some u => some ((s.giveBack u.fd).set w (some ⟨-1⟩))
    | none => none
  | .destroy w =>
    match s.wrapper w with
    | some u => some ((s.closeIfOpen u.fd).set w none)
    | none => none
  | .opened d => some { s with isOpen := Function.update s.isOpen d true }
  | .closedElsewhere d => some { s with isOpen := Function.update s.isOpen d false }

/-- A wrapper holds an open descriptor. -/
def Holds (s : FdWorld W) (w : W) (d : ℤ) : Prop :=
  s.wrapper w = some ⟨d⟩ ∧ UniqueFd.isOpenFd d

/-- A wrapper is given an open descriptor that no wrapper holds, or a negative number. -/
def MayHand (s : FdWorld W) (f : ℤ) : Prop :=
  UniqueFd.isOpenFd f → s.isOpen f ∧ ∀ w, ¬ s.Holds w f

/-- How the operations are used: descriptors are handed over as above, and what a wrapper holds is
closed by nobody else. A number is open when the system gives it out. -/
def Allowed (s : FdWorld W) : FdOp W → Prop
  | .construct _ f => s.MayHand f
  | .reset _ f => s.MayHand f
  | .closedElsewhere d => ∀ w, ¬ s.Holds w d
  | _ => True

/-- What has happened to one descriptor. -/
def history (s : FdWorld W) (d : ℤ) : List FdEvent := s.log.filter fun e => e.fd == d

end FdWorld

/-- Every handover has ended, in one close or in one release. -/
inductive Settled (d : ℤ) : List FdEvent → Prop
  | nil : Settled d []
  | closed {es : List FdEvent} : Settled d es → Settled d (es ++ [.handed d, .closed d])
  | released {es : List FdEvent} : Settled d es → Settled d (es ++ [.handed d, .released d])

/-- The last handover has not ended. -/
def Pending (d : ℤ) (es : List FdEvent) : Prop := ∃ past, Settled d past ∧ es = past ++ [.handed d]

namespace FdWorld

variable {W : Type*} [DecidableEq W] {s s' : FdWorld W} {w w' other : W} {u v : UniqueFd} {d f : ℤ}

/-- What holds after every run. -/
structure Owned (s : FdWorld W) : Prop where
  unique : ∀ w w' d, s.Holds w d → s.Holds w' d → w = w'
  isOpen : ∀ w d, s.Holds w d → s.isOpen d
  pending : ∀ w d, s.Holds w d → Pending d (s.history d)
  settled : ∀ d, (∀ w, ¬ s.Holds w d) → Settled d (s.history d)

/-- A wrapper without an open descriptor. -/
def Idle (s : FdWorld W) (w : W) : Prop := ∀ d, ¬ s.Holds w d

/-! ### What a wrapper holds -/

omit [DecidableEq W] in
theorem idle_of_none (h : s.wrapper w = none) : s.Idle w := by
  rintro d ⟨hd, _⟩
  rw [h] at hd
  cases hd

omit [DecidableEq W] in
theorem idle_of_closed (h : s.wrapper w = some u) (hu : ¬ UniqueFd.isOpenFd u.fd) : s.Idle w := by
  rintro d ⟨hd, hopen⟩
  rw [h, Option.some_inj] at hd
  subst hd
  exact hu hopen

omit [DecidableEq W] in
theorem holds_fd (h : s.wrapper w = some u) (hu : UniqueFd.isOpenFd u.fd) : s.Holds w u.fd :=
  ⟨h, hu⟩

theorem holds_set_self (u : Option UniqueFd) :
    (s.set w u).Holds w d ↔ u = some ⟨d⟩ ∧ UniqueFd.isOpenFd d := by
  simp [Holds, set]

theorem holds_set_of_ne (h : w' ≠ w) (u : Option UniqueFd) :
    (s.set w u).Holds w' d ↔ s.Holds w' d := by
  simp [Holds, set, h]

/-- What a destroyed wrapper and a moved one hold. -/
def Empty (u : Option UniqueFd) : Prop := ∀ d, u = some ⟨d⟩ → ¬ UniqueFd.isOpenFd d

theorem empty_none : Empty none := nofun

theorem empty_neg_one : Empty (some ⟨-1⟩) := by
  rintro d hd
  cases hd
  decide

theorem holds_set_empty {u : Option UniqueFd} (hu : Empty u) :
    (s.set w u).Holds w' d ↔ w' ≠ w ∧ s.Holds w' d := by
  rcases eq_or_ne w' w with rfl | h
  · rw [holds_set_self]
    constructor
    · rintro ⟨hd, hopen⟩
      exact absurd hopen (hu d hd)
    · rintro ⟨hne, _⟩
      exact absurd rfl hne
  · rw [holds_set_of_ne h]
    exact ⟨fun hd => ⟨h, hd⟩, And.right⟩

/-! ### Histories -/

omit [DecidableEq W] in
theorem history_snoc {e : FdEvent} (hlog : s'.log = s.log ++ [e]) (d : ℤ) :
    s'.history d = s.history d ++ if e.fd = d then [e] else [] := by
  rw [history, hlog, List.filter_append, history]
  by_cases h : e.fd = d <;> simp [h]

/-! ### One operation -/

omit [DecidableEq W] in
theorem Owned.init : (FdWorld.init : FdWorld W).Owned := by
  have hidle : ∀ w d, ¬ (FdWorld.init : FdWorld W).Holds w d := fun w => idle_of_none rfl
  constructor
  · exact fun w _ d h => absurd h (hidle w d)
  · exact fun w d h => absurd h (hidle w d)
  · exact fun w d h => absurd h (hidle w d)
  · exact fun d _ => .nil

/-- A wrapper that holds nothing may be forgotten, or be there and hold nothing. -/
theorem Owned.set_empty (h : s.Owned) (hw : s.Idle w) {u : Option UniqueFd} (hu : Empty u) :
    (s.set w u).Owned := by
  have hiff : ∀ w' d, (s.set w u).Holds w' d ↔ s.Holds w' d := by
    intro w' d
    rw [holds_set_empty hu]
    constructor
    · exact And.right
    · rintro hd
      refine ⟨?_, hd⟩
      rintro rfl
      exact hw d hd
  constructor
  · intro w₁ w₂ d h₁ h₂
    exact h.unique w₁ w₂ d ((hiff w₁ d).mp h₁) ((hiff w₂ d).mp h₂)
  · exact fun w' d hd => h.isOpen w' d ((hiff w' d).mp hd)
  · exact fun w' d hd => h.pending w' d ((hiff w' d).mp hd)
  · exact fun d hd => h.settled d fun w' hw' => hd w' ((hiff w' d).mpr hw')

/-- The end of a handover: the wrapper closes its descriptor or gives it back. -/
theorem Owned.ended (h : s.Owned) (hw : s.Holds w d) {u : Option UniqueFd} (hu : Empty u)
    {e : FdEvent} (he : e = .closed d ∨ e = .released d)
    (hwrapper : s'.wrapper = s.wrapper) (hopen : ∀ d' ≠ d, s'.isOpen d' = s.isOpen d')
    (hlog : s'.log = s.log ++ [e]) : (s'.set w u).Owned := by
  have hiff : ∀ w' d', (s'.set w u).Holds w' d' ↔ w' ≠ w ∧ s.Holds w' d' := by
    intro w' d'
    rw [holds_set_empty hu, Holds, hwrapper, Holds]
  have hne : ∀ w' d', (s'.set w u).Holds w' d' → d' ≠ d := by
    rintro w' _ hd rfl
    rw [hiff] at hd
    exact hd.1 (h.unique w' w _ hd.2 hw)
  have hfd : e.fd = d := by
    rcases he with rfl | rfl <;> rfl
  have hhist : ∀ d', (s'.set w u).history d' = s.history d' ++ if d = d' then [e] else [] := by
    intro d'
    rw [← hfd]
    exact history_snoc hlog d'
  constructor
  · intro w₁ w₂ d' h₁ h₂
    exact h.unique w₁ w₂ d' ((hiff w₁ d').mp h₁).2 ((hiff w₂ d').mp h₂).2
  · intro w' d' hd
    have hold := h.isOpen w' d' ((hiff w' d').mp hd).2
    rw [← hopen d' (hne w' d' hd)] at hold
    exact hold
  · intro w' d' hd
    rw [hhist, if_neg (hne w' d' hd).symm, List.append_nil]
    exact h.pending w' d' ((hiff w' d').mp hd).2
  · intro d' hd
    rw [hhist]
    split
    · rename_i heq
      subst heq
      obtain ⟨past, hpast, hnow⟩ := h.pending w d hw
      rw [hnow, List.append_assoc]
      rcases he with rfl | rfl
      · exact .closed hpast
      · exact .released hpast
    · rename_i hd'
      rw [List.append_nil]
      apply h.settled
      rintro w' hw'
      apply hd w'
      rw [hiff]
      refine ⟨?_, hw'⟩
      rintro rfl
      obtain ⟨h₁, _⟩ := hw
      rw [hw'.1, Option.some_inj] at h₁
      cases h₁
      exact hd' rfl

section Handover

variable (hopen : UniqueFd.isOpenFd f)

include hopen

omit [DecidableEq W] in
theorem hand_of_open : s.hand f = { s with log := s.log ++ [.handed f] } := by
  rw [hand, if_pos hopen]

theorem holds_put (hw : s.Idle w) : ((s.hand f).set w (some ⟨f⟩)).Holds w' d ↔
    w' = w ∧ d = f ∨ s.Holds w' d := by
  rcases eq_or_ne w' w with rfl | hne
  · rw [holds_set_self]
    constructor
    · rintro ⟨hd, _⟩
      cases hd
      exact Or.inl ⟨rfl, rfl⟩
    · rintro (⟨_, rfl⟩ | hd)
      · exact ⟨rfl, hopen⟩
      · exact absurd hd (hw d)
  · rw [holds_set_of_ne hne, hand_of_open hopen]
    constructor
    · exact Or.inr
    · rintro (⟨heq, _⟩ | hd)
      · exact absurd heq hne
      · exact hd

theorem history_put (w : W) (d : ℤ) : ((s.hand f).set w (some ⟨f⟩)).history d =
    s.history d ++ if f = d then [.handed f] else [] := by
  have hlog : ((s.hand f).set w (some ⟨f⟩)).log = s.log ++ [.handed f] := by
    rw [hand_of_open hopen]
    rfl
  exact history_snoc hlog d

end Handover

/-- The handover of a descriptor that no wrapper holds. -/
theorem Owned.put (h : s.Owned) (hw : s.Idle w) (hf : s.MayHand f) :
    ((s.hand f).set w (some ⟨f⟩)).Owned := by
  by_cases hopen : UniqueFd.isOpenFd f
  · obtain ⟨hisOpen, hfree⟩ := hf hopen
    constructor
    · intro w₁ w₂ d hd₁ hd₂
      rcases (holds_put hopen hw).mp hd₁ with ⟨rfl, rfl⟩ | hold₁
      · rcases (holds_put hopen hw).mp hd₂ with ⟨rfl, _⟩ | hold₂
        · rfl
        · exact absurd hold₂ (hfree w₂)
      · rcases (holds_put hopen hw).mp hd₂ with ⟨_, rfl⟩ | hold₂
        · exact absurd hold₁ (hfree w₁)
        · exact h.unique w₁ w₂ d hold₁ hold₂
    · intro w' d hd
      rw [hand_of_open hopen]
      rcases (holds_put hopen hw).mp hd with ⟨_, rfl⟩ | hd
      · exact hisOpen
      · exact h.isOpen w' d hd
    · intro w' d hd
      rw [history_put hopen]
      rcases (holds_put hopen hw).mp hd with ⟨_, rfl⟩ | hd
      · rw [if_pos rfl]
        exact ⟨s.history d, h.settled d hfree, rfl⟩
      · have hne : f ≠ d := by
          rintro rfl
          exact hfree w' hd
        rw [if_neg hne, List.append_nil]
        exact h.pending w' d hd
    · intro d hd
      have hne : f ≠ d := by
        rintro rfl
        exact hd w ((holds_put hopen hw).mpr (Or.inl ⟨rfl, rfl⟩))
      rw [history_put hopen, if_neg hne, List.append_nil]
      exact h.settled d fun w' hw' => hd w' ((holds_put hopen hw).mpr (Or.inr hw'))
  · rw [hand, if_neg hopen]
    apply h.set_empty hw
    rintro d hd
    cases hd
    exact hopen

theorem holds_transfer (hother : s.wrapper other = some v) (hne : other ≠ w) :
    ((s.set w (some ⟨v.fd⟩)).set other (some ⟨-1⟩)).Holds w' d ↔
      w' = w ∧ s.Holds other d ∨ (w' ≠ w ∧ w' ≠ other) ∧ s.Holds w' d := by
  rw [holds_set_empty empty_neg_one]
  rcases eq_or_ne w' w with rfl | hw'
  · have hself : (s.set w' (some ⟨v.fd⟩)).Holds w' d ↔ s.Holds other d := by
      rw [holds_set_self, Holds, hother]
    rw [hself]
    simp [hne.symm]
  · rw [holds_set_of_ne hw']
    simp [hw']

/-- A move takes what another wrapper holds. -/
theorem Owned.transfer (h : s.Owned) (hw : s.Idle w) (hother : s.wrapper other = some v)
    (hne : other ≠ w) : ((s.set w (some ⟨v.fd⟩)).set other (some ⟨-1⟩)).Owned := by
  have hkeep : ∀ w' d, s.Holds w' d →
      ∃ w'', ((s.set w (some ⟨v.fd⟩)).set other (some ⟨-1⟩)).Holds w'' d := by
    intro w' d hd
    rcases eq_or_ne w' other with rfl | hw'
    · exact ⟨w, (holds_transfer hother hne).mpr (Or.inl ⟨rfl, hd⟩)⟩
    · refine ⟨w', (holds_transfer hother hne).mpr (Or.inr ⟨⟨?_, hw'⟩, hd⟩)⟩
      rintro rfl
      exact hw d hd
  have hback : ∀ w' d, ((s.set w (some ⟨v.fd⟩)).set other (some ⟨-1⟩)).Holds w' d →
      ∃ w'', s.Holds w'' d := by
    intro w' d hd
    rcases (holds_transfer hother hne).mp hd with ⟨_, hd⟩ | ⟨_, hd⟩
    · exact ⟨other, hd⟩
    · exact ⟨w', hd⟩
  constructor
  · intro w₁ w₂ d hd₁ hd₂
    rcases (holds_transfer hother hne).mp hd₁ with ⟨rfl, hold₁⟩ | ⟨⟨_, hne₁⟩, hold₁⟩
    · rcases (holds_transfer hother hne).mp hd₂ with ⟨rfl, _⟩ | ⟨⟨_, hne₂⟩, hold₂⟩
      · rfl
      · exact absurd (h.unique w₂ other d hold₂ hold₁) hne₂
    · rcases (holds_transfer hother hne).mp hd₂ with ⟨_, hold₂⟩ | ⟨_, hold₂⟩
      · exact absurd (h.unique w₁ other d hold₁ hold₂) hne₁
      · exact h.unique w₁ w₂ d hold₁ hold₂
  · intro w' d hd
    obtain ⟨w'', hd⟩ := hback w' d hd
    exact h.isOpen w'' d hd
  · intro w' d hd
    obtain ⟨w'', hd⟩ := hback w' d hd
    exact h.pending w'' d hd
  · intro d hd
    apply h.settled
    rintro w' hw'
    obtain ⟨w'', hd'⟩ := hkeep w' d hw'
    exact hd w'' hd'

/-! ### Every operation -/

/-- `if (is_open_fd(fd)) close(fd);` leaves the wrapper to be filled again. -/
theorem Owned.closeIfOpen (h : s.Owned) (hw : s.wrapper w = some u) {u' : Option UniqueFd}
    (hu' : Empty u') : ((s.closeIfOpen u.fd).set w u').Owned := by
  by_cases hopen : UniqueFd.isOpenFd u.fd
  · rw [FdWorld.closeIfOpen, if_pos hopen]
    exact h.ended (holds_fd hw hopen) hu' (Or.inl rfl) rfl
      (fun d' hd' => Function.update_of_ne hd' _ _) rfl
  · rw [FdWorld.closeIfOpen, if_neg hopen]
    exact h.set_empty (idle_of_closed hw hopen) hu'

theorem Owned.giveBack (h : s.Owned) (hw : s.wrapper w = some u) :
    ((s.giveBack u.fd).set w (some ⟨-1⟩)).Owned := by
  by_cases hopen : UniqueFd.isOpenFd u.fd
  · rw [FdWorld.giveBack, if_pos hopen]
    exact h.ended (holds_fd hw hopen) empty_neg_one (Or.inr rfl) rfl (fun _ _ => rfl) rfl
  · rw [FdWorld.giveBack, if_neg hopen]
    exact h.set_empty (idle_of_closed hw hopen) empty_neg_one

theorem set_set (s : FdWorld W) (w : W) (u u' : Option UniqueFd) :
    (s.set w u).set w u' = s.set w u' := by
  simp [set]

theorem hand_set (s : FdWorld W) (w : W) (u : Option UniqueFd) (f : ℤ) :
    (s.set w u).hand f = (s.hand f).set w u := by
  rw [hand, hand]
  split <;> rfl

omit [DecidableEq W] in
@[simp] theorem closeIfOpen_wrapper (s : FdWorld W) (d : ℤ) :
    (s.closeIfOpen d).wrapper = s.wrapper := by
  rw [FdWorld.closeIfOpen]
  split <;> rfl

theorem idle_set_empty {u : Option UniqueFd} (hu : Empty u) : (s.set w u).Idle w := by
  rintro d hd
  exact ((holds_set_empty hu).mp hd).1 rfl

/-- A descriptor that may be handed over may still be after a wrapper closed its own. -/
theorem MayHand.closeIfOpen (hf : s.MayHand f) (hw : s.wrapper w = some u) :
    ((s.closeIfOpen u.fd).set w (some ⟨-1⟩)).MayHand f := by
  rintro hopen
  obtain ⟨hisOpen, hfree⟩ := hf hopen
  constructor
  · have hne : f ≠ u.fd := by
      rintro rfl
      exact hfree w ⟨hw, hopen⟩
    rw [FdWorld.closeIfOpen]
    split
    · exact (Function.update_of_ne hne false s.isOpen).trans hisOpen
    · exact hisOpen
  · rintro w' hw'
    rw [holds_set_empty empty_neg_one, Holds, closeIfOpen_wrapper] at hw'
    exact hfree w' hw'.2

/-- What a step does. -/
inductive Does (s : FdWorld W) : FdOp W → FdWorld W → Prop
  | construct {w : W} {f : ℤ} (hw : s.wrapper w = none) :
      Does s (.construct w f) ((s.hand f).set w (some ⟨f⟩))
  | moveConstruct {w other : W} {v : UniqueFd} (hw : s.wrapper w = none)
      (hother : s.wrapper other = some v) :
      Does s (.moveConstruct w other) ((s.set w (some ⟨v.fd⟩)).set other (some ⟨-1⟩))
  | moveAssign {w other : W} {u v : UniqueFd} (hw : s.wrapper w = some u)
      (hother : s.wrapper other = some v) (hne : w ≠ other) :
      Does s (.moveAssign w other)
        (((s.closeIfOpen u.fd).set w (some ⟨v.fd⟩)).set other (some ⟨-1⟩))
  | selfAssign {w : W} : Does s (.moveAssign w w) s
  | reset {w : W} {f : ℤ} {u : UniqueFd} (hw : s.wrapper w = some u) :
      Does s (.reset w f) (((s.closeIfOpen u.fd).hand f).set w (some ⟨f⟩))
  | release {w : W} {u : UniqueFd} (hw : s.wrapper w = some u) :
      Does s (.release w) ((s.giveBack u.fd).set w (some ⟨-1⟩))
  | destroy {w : W} {u : UniqueFd} (hw : s.wrapper w = some u) :
      Does s (.destroy w) ((s.closeIfOpen u.fd).set w none)
  | opened {d : ℤ} : Does s (.opened d) { s with isOpen := Function.update s.isOpen d true }
  | closedElsewhere {d : ℤ} :
      Does s (.closedElsewhere d) { s with isOpen := Function.update s.isOpen d false }

theorem does_of_step {op : FdOp W} (hs : s.step op = some s') : s.Does op s' := by
  cases op with
  | construct w f =>
    rw [FdWorld.step] at hs
    split at hs
    · rename_i hw
      cases hs
      exact .construct hw
    · cases hs
  | moveConstruct w other =>
    rw [FdWorld.step] at hs
    split at hs
    · rename_i v hw hother
      cases hs
      exact .moveConstruct hw hother
    · cases hs
  | moveAssign w other =>
    rw [FdWorld.step] at hs
    split at hs
    · rename_i u v hw hother
      split at hs
      · rename_i hne
        cases hs
        exact .moveAssign hw hother hne
      · rename_i heq
        cases hs
        rw [← not_not.mp heq]
        exact .selfAssign
    · cases hs
  | reset w f =>
    rw [FdWorld.step] at hs
    split at hs
    · rename_i u hw
      cases hs
      exact .reset hw
    · cases hs
  | release w =>
    rw [FdWorld.step] at hs
    split at hs
    · rename_i u hw
      cases hs
      exact .release hw
    · cases hs
  | destroy w =>
    rw [FdWorld.step] at hs
    split at hs
    · rename_i u hw
      cases hs
      exact .destroy hw
    · cases hs
  | opened d =>
    cases hs
    exact .opened
  | closedElsewhere d =>
    cases hs
    exact .closedElsewhere

/-- Every allowed operation keeps what wrappers hold in order. -/
theorem Owned.step {op : FdOp W} (h : s.Owned) (hok : s.Allowed op) (hs : s.step op = some s') :
    s'.Owned := by
  cases does_of_step hs with
  | construct hw => exact h.put (idle_of_none hw) hok
  | moveConstruct hw hother =>
    apply h.transfer (idle_of_none hw) hother
    rintro rfl
    rw [hw] at hother
    cases hother
  | @moveAssign w other u v hw hother hne =>
    have hother' : ((s.closeIfOpen u.fd).set w (some ⟨-1⟩)).wrapper other = some v := by
      simpa [set, hne.symm] using hother
    have hmid := (h.closeIfOpen hw empty_neg_one).transfer (idle_set_empty empty_neg_one)
      hother' hne.symm
    rwa [set_set] at hmid
  | selfAssign => exact h
  | reset hw =>
    have hmid := (h.closeIfOpen hw empty_neg_one).put (idle_set_empty empty_neg_one)
      (MayHand.closeIfOpen hok hw)
    rwa [hand_set, set_set] at hmid
  | release hw => exact h.giveBack hw
  | destroy hw => exact h.closeIfOpen hw empty_none
  | @opened d =>
    refine ⟨h.unique, fun w d' hd => ?_, h.pending, h.settled⟩
    rcases eq_or_ne d' d with rfl | hne
    · exact Function.update_self ..
    · exact (Function.update_of_ne hne true s.isOpen).trans (h.isOpen w d' hd)
  | @closedElsewhere d =>
    refine ⟨h.unique, fun w d' hd => ?_, h.pending, h.settled⟩
    have hne : d' ≠ d := by
      rintro rfl
      exact hok w hd
    exact (Function.update_of_ne hne false s.isOpen).trans (h.isOpen w d' hd)

/-! ### Closing -/

section Log

omit [DecidableEq W]

@[simp] theorem closeIfOpen_log (s : FdWorld W) (d : ℤ) :
    (s.closeIfOpen d).log = s.log ++ if UniqueFd.isOpenFd d then [.closed d] else [] := by
  rw [FdWorld.closeIfOpen]
  split
  · rfl
  · rw [List.append_nil]

@[simp] theorem hand_log (s : FdWorld W) (d : ℤ) :
    (s.hand d).log = s.log ++ if UniqueFd.isOpenFd d then [.handed d] else [] := by
  rw [hand]
  split
  · rfl
  · rw [List.append_nil]

@[simp] theorem giveBack_log (s : FdWorld W) (d : ℤ) :
    (s.giveBack d).log = s.log ++ if UniqueFd.isOpenFd d then [.released d] else [] := by
  rw [FdWorld.giveBack]
  split
  · rfl
  · rw [List.append_nil]

@[simp] theorem hand_isOpen (s : FdWorld W) (d : ℤ) : (s.hand d).isOpen = s.isOpen := by
  rw [hand]
  split <;> rfl

theorem closeIfOpen_isOpen (s : FdWorld W) (h : UniqueFd.isOpenFd d) :
    (s.closeIfOpen d).isOpen d = false := by
  rw [FdWorld.closeIfOpen, if_pos h]
  exact Function.update_self ..

end Log

@[simp] theorem set_log (s : FdWorld W) (w : W) (u : Option UniqueFd) :
    (s.set w u).log = s.log := rfl

@[simp] theorem set_isOpen (s : FdWorld W) (w : W) (u : Option UniqueFd) :
    (s.set w u).isOpen = s.isOpen := rfl

/-- What the first operation of a step closes. -/
theorem mem_closeIfOpen (hd : FdEvent.closed d ∈ if UniqueFd.isOpenFd f then [.closed f] else []) :
    d = f ∧ UniqueFd.isOpenFd f := by
  split at hd
  · rename_i h
    rw [List.mem_singleton] at hd
    cases hd
    exact ⟨rfl, h⟩
  · cases hd

/-- A step closes what the wrapper that it is about holds. -/
theorem closed_of_step {op : FdOp W} (hs : s.step op = some s') {es : List FdEvent}
    (hlog : s'.log = s.log ++ es) (hd : .closed d ∈ es) :
    (∃ w, s.Holds w d) ∧ s'.isOpen d = false := by
  have hcut : ∀ {es' : List FdEvent}, s'.log = s.log ++ es' → .closed d ∈ es' := by
    intro es' hlog'
    rwa [List.append_cancel_left (hlog'.symm.trans hlog)]
  cases does_of_step hs with
  | construct _ =>
    have hmem := hcut (by rw [set_log, hand_log])
    split at hmem <;> simp at hmem
  | moveConstruct _ _ => exact absurd (hcut (List.append_nil _).symm) List.not_mem_nil
  | @moveAssign w other u v hw hother hne =>
    obtain ⟨rfl, hopen⟩ := mem_closeIfOpen (hcut (by rw [set_log, set_log, closeIfOpen_log]))
    exact ⟨⟨w, holds_fd hw hopen⟩, closeIfOpen_isOpen s hopen⟩
  | selfAssign => exact absurd (hcut (List.append_nil _).symm) List.not_mem_nil
  | @reset w f u hw =>
    have hmem := hcut (by rw [set_log, hand_log, closeIfOpen_log, List.append_assoc])
    rcases List.mem_append.mp hmem with hmem | hmem
    · obtain ⟨rfl, hopen⟩ := mem_closeIfOpen hmem
      refine ⟨⟨w, holds_fd hw hopen⟩, ?_⟩
      rw [set_isOpen, hand_isOpen]
      exact closeIfOpen_isOpen s hopen
    · split at hmem <;> simp at hmem
  | release _ =>
    have hmem := hcut (by rw [set_log, giveBack_log])
    split at hmem <;> simp at hmem
  | @destroy w u hw =>
    obtain ⟨rfl, hopen⟩ := mem_closeIfOpen (hcut (by rw [set_log, closeIfOpen_log]))
    exact ⟨⟨w, holds_fd hw hopen⟩, closeIfOpen_isOpen s hopen⟩
  | opened => exact absurd (hcut (List.append_nil _).symm) List.not_mem_nil
  | closedElsewhere => exact absurd (hcut (List.append_nil _).symm) List.not_mem_nil

/-! ### Runs -/

/-- The invariant holds after every run of allowed operations. -/
theorem owned_of_run {ops : List (FdOp W)} (hok : Run.Meets step Allowed init ops)
    (hrun : Run.exec step init ops = some s) : s.Owned :=
  Run.invariant (fun _ _ _ h hok hs => Owned.step h hok hs) Owned.init hok hrun

end FdWorld

open FdWorld in
/-- In every run no two wrappers hold one descriptor, every handover of a descriptor has ended in
one close or one release, apart from the last while a wrapper holds the descriptor, and what a
wrapper closes is open and held by it alone. Once all wrappers are destroyed every handover has
ended. -/
theorem uniqueFd_closes_once {W : Type*} [DecidableEq W] {ops : List (FdOp W)} {s : FdWorld W}
    (hok : Run.Meets step Allowed init ops) (hrun : Run.exec step init ops = some s) :
    (∀ w w' d, s.Holds w d → s.Holds w' d → w = w') ∧
      (∀ d, Settled d (s.history d) ∨ (∃ w, s.Holds w d) ∧ Pending d (s.history d)) ∧
      (∀ op s' es d, s.Allowed op → s.step op = some s' → s'.log = s.log ++ es →
        FdEvent.closed d ∈ es →
        s.isOpen d ∧ (∃ w, s.Holds w d ∧ ∀ w', s.Holds w' d → w' = w) ∧ ∀ w', ¬ s'.Holds w' d) ∧
      ((∀ w, s.wrapper w = none) → ∀ d, Settled d (s.history d)) := by
  have h := owned_of_run hok hrun
  refine ⟨h.unique, ?_, ?_, ?_⟩
  · intro d
    by_cases hd : ∃ w, s.Holds w d
    · obtain ⟨w, hw⟩ := hd
      exact Or.inr ⟨⟨w, hw⟩, h.pending w d hw⟩
    · exact Or.inl (h.settled d fun w hw => hd ⟨w, hw⟩)
  · intro op s' es d hallowed hs hlog hd
    obtain ⟨⟨w, hw⟩, hclosed⟩ := closed_of_step hs hlog hd
    refine ⟨h.isOpen w d hw, ⟨w, hw, fun w' hw' => h.unique w' w d hw' hw⟩, ?_⟩
    rintro w' hw'
    have hopen := (Owned.step h hallowed hs).isOpen w' d hw'
    rw [hclosed] at hopen
    cases hopen
  · intro hnone d
    exact h.settled d fun w => idle_of_none (hnone w) d

/-- A descriptor that is moved, moved onto itself and given up in a reset. -/
def fdMoves : List (FdOp ℕ) :=
  [.opened 3, .construct 0 3, .moveConstruct 1 0, .moveAssign 1 1, .reset 1 (-1), .destroy 0,
    .destroy 1]

theorem fdMoves_allowed : Run.Meets FdWorld.step FdWorld.Allowed FdWorld.init fdMoves := by
  simp [fdMoves, Run.Meets, FdWorld.Allowed, FdWorld.MayHand, FdWorld.Holds, FdWorld.step,
    FdWorld.init, FdWorld.set, FdWorld.hand, FdWorld.closeIfOpen, FdWorld.close,
    UniqueFd.isOpenFd]

theorem uniqueFd_closes_once_moves :
    ∃ s, Run.exec FdWorld.step FdWorld.init fdMoves = some s ∧ Settled 3 (s.history 3) ∧
      s.history 3 = [.handed 3, .closed 3] := by
  refine ⟨_, rfl, ?_, rfl⟩
  apply (uniqueFd_closes_once fdMoves_allowed rfl).2.2.2
  rintro w
  rcases w with _ | _ | w <;> rfl

end KWatch
