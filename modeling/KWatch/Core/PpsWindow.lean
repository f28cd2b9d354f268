import KWatch.Library.Circular

/-! # The packet rate window

The samples of the dashboard's graph. The vector is indexed without a check and the average divides
by the number of samples, so every read, every write and every division of the model may have no
value.
-/

namespace KWatch

/-- `vector::operator[]` on the left of an assignment. -/
def setAt {α : Type*} (window : List α) (idx : ℕ) (value : α) : Option (List α) :=
  if idx < window.length then some (window.set idx value) else none

/-- The remainder, which is undefined for the divisor 0. -/
def modulo (a b : ℕ) : Option ℕ := if b = 0 then none else some (a % b)

/-- The quotient, which is undefined for the divisor 0. -/
def quotient (a b : ℕ) : Option ℕ := if b = 0 then none else some (a / b)

structure PpsWindow where
  window : List UInt64
  head : ℕ
  count : ℕ
deriving Repr, DecidableEq

namespace PpsWindow

/-- The constructor. -/
def ofSize (size : ℕ) : PpsWindow := ⟨List.replicate size 0, 0, 0⟩

def push (w : PpsWindow) (pps : UInt64) : Option PpsWindow :=
  if w.window.isEmpty then
    some w
  else do
    let window ← setAt w.window w.head pps
    let head ← modulo (w.head + 1) window.length
    let count := if w.count < window.length then w.count + 1 else w.count
    some ⟨window, head, count⟩

/-- One turn of the loop of `copy_snapshot`. -/
def copyStep (w : PpsWindow) (start : ℕ) (out : List UInt64) (i : ℕ) : Option (List UInt64) := do
  let idx ← modulo (start + i) w.window.length
  let sample ← w.window[idx]?
  some (out ++ [sample])

/-- The previous contents of the vector are cleared first. -/
def copySnapshot (w : PpsWindow) (_out : List UInt64) : Option (List UInt64) :=
  if w.count = 0 then
    some []
  else
    let start := if w.count < w.window.length then 0 else w.head
    (List.range w.count).foldlM (w.copyStep start) []

def latest (w : PpsWindow) : Option UInt64 :=
  if w.count = 0 ∨ w.window.isEmpty then
    some 0
  else
    let idx := if w.head = 0 then w.window.length - 1 else w.head - 1
    w.window[idx]?

def getSnapshot (w : PpsWindow) : Option (List UInt64) := w.copySnapshot []

/-- One turn of the loop of `current_average`. -/
def sumStep (w : PpsWindow) (sum : UInt64) (i : ℕ) : Option UInt64 := do
  let sample ← w.window[i]?
  some (sum + sample)

def currentAverage (w : PpsWindow) : Option UInt64 :=
  if w.count = 0 then
    some 0
  else do
    let sum ← (List.range w.count).foldlM w.sumStep 0
    let average ← quotient sum.toNat w.count
    some (UInt64.ofNat average)

/-- The window after samples. -/
def pushes (w : PpsWindow) (samples : List UInt64) : Option PpsWindow := samples.foldlM push w

end PpsWindow

/-! ### The recent samples -/

/-- The last samples, oldest first, as many as the window has room for. -/
def recent (size : ℕ) (samples : List UInt64) : List UInt64 := samples.rtake size

/-- The mean of samples whose sum is kept in 64 bits, and 0 for none. -/
def average (samples : List UInt64) : UInt64 :=
  UInt64.ofNat ((samples.map UInt64.toNat).sum % 2 ^ 64 / samples.length)

namespace PpsWindow

variable {w : PpsWindow} {size : ℕ} {samples : List UInt64}

/-- A window of a size that holds the recent ones of the samples. A window of size 0 stays empty. -/
structure Holds (w : PpsWindow) (size : ℕ) (samples : List UInt64) : Prop where
  size_eq : w.window.length = size
  ok : 0 < size → Circular.Ok w.window w.head w.count
  contents : 0 < size → Circular.contents w.window w.head w.count = recent size samples
  empty : size = 0 → w.count = 0

theorem holds_ofSize (size : ℕ) : (ofSize size).Holds size [] := by
  have hlen : (ofSize size).window.length = size := List.length_replicate
  constructor
  · exact hlen
  · intro h
    exact Circular.Ok.init (by rwa [hlen])
  · intro _
    rw [recent, List.rtake_nil]
    exact Circular.contents_empty _ _
  · exact fun _ => rfl

theorem Holds.push (h : w.Holds size samples) (pps : UInt64) :
    ∃ w', w.push pps = some w' ∧ w'.Holds size (samples ++ [pps]) := by
  rcases Nat.eq_zero_or_pos size with rfl | hpos
  · have hw : w.window = [] := List.eq_nil_of_length_eq_zero h.size_eq
    refine ⟨w, by rw [PpsWindow.push, hw]; rfl, h.size_eq, ?_, ?_, h.empty⟩ <;>
      exact fun h0 => absurd h0 (lt_irrefl _)
  · have hok := h.ok hpos
    have hne : w.window ≠ [] := List.ne_nil_of_length_pos hok.head_lt.pos
    have hstep : w.push pps = some ⟨w.window.set w.head pps, (w.head + 1) % w.window.length,
        Circular.nextCount w.window w.count⟩ := by
      simp [PpsWindow.push, hne, setAt, hok.head_lt, modulo, Circular.nextCount]
    refine ⟨_, hstep, ?_, ?_, ?_, ?_⟩
    · rw [List.length_set]
      exact h.size_eq
    · exact fun _ => hok.push pps
    · intro _
      rw [hok.contents_push, h.contents hpos, h.size_eq]
      exact Circular.rtake_snoc_rtake samples pps size
    · exact fun h0 => absurd h0 hpos.ne'

theorem Holds.pushes (h : w.Holds size samples) (more : List UInt64) :
    ∃ w', w.pushes more = some w' ∧ w'.Holds size (samples ++ more) := by
  induction more generalizing w samples with
  | nil => exact ⟨w, rfl, by rwa [List.append_nil]⟩
  | cons pps more ih =>
    obtain ⟨w₁, hstep, h₁⟩ := h.push pps
    obtain ⟨w', hrun, h'⟩ := ih h₁
    refine ⟨w', ?_, by simpa using h'⟩
    rw [PpsWindow.pushes, List.foldlM_cons, hstep]
    exact hrun

/-! ### Reading the window -/

theorem Holds.count_eq (h : w.Holds size samples) : w.count = (recent size samples).length := by
  rcases Nat.eq_zero_or_pos size with rfl | hpos
  · rw [h.empty rfl, recent, List.rtake_zero, List.length_nil]
  · rw [← h.contents hpos, (h.ok hpos).length_contents]

theorem Holds.pos (h : w.Holds size samples) (hc : w.count ≠ 0) : 0 < size :=
  Nat.pos_of_ne_zero fun h0 => hc (h.empty h0)

/-- The loop of `copy_snapshot` reads the values in order. -/
theorem foldlM_copyStep (hok : Circular.Ok w.window w.head w.count) {n : ℕ} (hn : n ≤ w.count) :
    (List.range n).foldlM (w.copyStep (Circular.start w.window w.head w.count)) [] =
      some ((Circular.contents w.window w.head w.count).take n) := by
  induction n with
  | zero => rfl
  | succ n ih =>
    have hlen := hok.length_contents
    have hget := hok.getElem?_contents hn
    rw [List.getElem?_eq_getElem (by omega)] at hget
    have hpos : w.window.length ≠ 0 := hok.head_lt.pos.ne'
    rw [List.range_succ, List.foldlM_append, ih (by omega),
      List.take_succ_eq_append_getElem (by omega)]
    simp [copyStep, modulo, hpos, ← hget]

theorem Holds.copySnapshot (h : w.Holds size samples) (out : List UInt64) :
    w.copySnapshot out = some (recent size samples) := by
  rw [PpsWindow.copySnapshot]
  split
  · rename_i hc
    rw [h.count_eq] at hc
    rw [List.eq_nil_of_length_eq_zero hc]
  · rename_i hc
    have hpos := h.pos hc
    have hfold := foldlM_copyStep (h.ok hpos) (le_refl w.count)
    rw [List.take_of_length_le (h.ok hpos).length_contents.le, h.contents hpos] at hfold
    exact hfold

theorem Holds.latest (h : w.Holds size samples) :
    w.latest = some ((recent size samples).getLast?.getD 0) := by
  rw [PpsWindow.latest]
  split
  · rename_i hc
    have hnil : (recent size samples).length = 0 := by
      rcases hc with hc | hc
      · rw [← h.count_eq, hc]
      · have hsize := h.size_eq
        rw [List.isEmpty_iff.mp hc, List.length_nil] at hsize
        rw [← h.count_eq, h.empty hsize.symm]
    rw [List.eq_nil_of_length_eq_zero hnil]
    rfl
  · rename_i hc
    rw [not_or] at hc
    have hpos := h.pos hc.1
    have hlast := (h.ok hpos).getLast?_contents (Nat.pos_of_ne_zero hc.1)
    have hne : recent size samples ≠ [] := by
      rintro hnil
      rw [h.count_eq, hnil] at hc
      exact hc.1 rfl
    rw [h.contents hpos] at hlast
    dsimp only
    rw [← hlast, List.getLast?_eq_some_getLast hne]
    rfl

/-- The loop of `current_average` adds up the cells in use in 64 bits. -/
theorem foldlM_sumStep {n : ℕ} (hn : n ≤ w.window.length) :
    (List.range n).foldlM w.sumStep 0 =
      some (UInt64.ofNat ((w.window.take n).map UInt64.toNat).sum) := by
  induction n with
  | zero => rfl
  | succ n ih =>
    have hget : w.window[n]? = some w.window[n] := List.getElem?_eq_getElem hn
    have hsum : ((w.window.take (n + 1)).map UInt64.toNat).sum =
        ((w.window.take n).map UInt64.toNat).sum + w.window[n].toNat := by
      rw [List.take_succ_eq_append_getElem hn, List.map_append, List.sum_append]
      simp
    rw [List.range_succ, List.foldlM_append, ih (by omega), hsum, UInt64.ofNat_add]
    simp only [List.foldlM_cons, List.foldlM_nil, sumStep, hget, Option.bind_eq_bind,
      Option.bind_some, UInt64.ofNat_toNat, Option.pure_def]

theorem Holds.currentAverage (h : w.Holds size samples) :
    w.currentAverage = some (average (recent size samples)) := by
  rw [PpsWindow.currentAverage]
  split
  · rename_i hc
    rw [h.count_eq] at hc
    rw [List.eq_nil_of_length_eq_zero hc]
    rfl
  · rename_i hc
    have hpos := h.pos hc
    have hok := h.ok hpos
    -- the order of the cells does not matter for the sum
    have hsum : ((w.window.take w.count).map UInt64.toNat).sum =
        ((recent size samples).map UInt64.toNat).sum := by
      rw [← h.contents hpos]
      exact (((Circular.contents_perm _ _ _).map _).sum_eq).symm
    rw [foldlM_sumStep hok.count_le, hsum, average, ← h.count_eq]
    simp [quotient, hc]

end PpsWindow

/-! ### Histories -/

/-- The window is the list of the recent samples, for every size and history. -/
theorem ppsWindow_recent (size : ℕ) (samples out : List UInt64) :
    ∃ w, (PpsWindow.ofSize size).pushes samples = some w ∧
      w.getSnapshot = some (recent size samples) ∧
      w.copySnapshot out = some (recent size samples) ∧
      w.latest = some (if size = 0 then 0 else samples.getLast?.getD 0) ∧
      w.currentAverage = some (average (recent size samples)) := by
  obtain ⟨w, hrun, h⟩ := (PpsWindow.holds_ofSize size).pushes samples
  rw [List.nil_append] at h
  have hlatest : (recent size samples).getLast?.getD 0 =
      if size = 0 then 0 else samples.getLast?.getD 0 := by
    rcases Nat.eq_zero_or_pos size with rfl | hpos
    · simp [recent]
    · rw [if_neg hpos.ne', recent, List.rtake, List.getLast?_drop]
      cases samples with
      | nil => rfl
      | cons a as => rw [if_neg (by simp only [List.length_cons]; omega)]
  refine ⟨w, hrun, h.copySnapshot [], h.copySnapshot out, ?_, h.currentAverage⟩
  rw [h.latest, hlatest]

example : (PpsWindow.ofSize 3).pushes [10, 20, 30, 40] >>= PpsWindow.getSnapshot =
    some [20, 30, 40] := by decide

end KWatch
