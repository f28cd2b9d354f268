import Mathlib

/-! # The sparkline

The graph of the packet rate: one glyph a sample, from a table of nine. The index of a glyph is
computed in 64 bits, where the product of a large sample wraps around, and has only an upper clamp
before the table is read.
-/

namespace KWatch

/-- The glyphs. -/
def bars : List String := [" ", " ", "▂", "▃", "▄", "▅", "▆", "▇", "█"]

/-- The conversion of a 64-bit value to a signed int keeps its low 32 bits. -/
def castInt (x : UInt64) : ℤ := (BitVec.ofNat 32 x.toNat).toInt

/-- Where the drawn samples start. -/
def sparkStart (data : List UInt64) (width : ℤ) : ℕ :=
  if data.length > width.toNat then data.length - width.toNat else 0

/-- The largest drawn sample, and 1 when all of them are 0. -/
def sparkMax (samples : List UInt64) : UInt64 :=
  let maxVal := samples.foldl (fun maxVal d => if d > maxVal then d else maxVal) 0
  if maxVal = 0 then 1 else maxVal

/-- The index of a glyph after the clamp. -/
def sparkIndex (d maxVal : UInt64) : ℤ :=
  let idx := castInt (d * 8 / maxVal)
  if idx > 8 then 8 else idx

/-- The table is read without a check. -/
def glyphAt (idx : ℤ) : Option String := if 0 ≤ idx then bars[idx.toNat]? else none

/-- The glyphs in order, with no value when an index leaves the table. -/
def renderSparkline (data : List UInt64) (width : ℤ) : Option (List String) :=
  if data.isEmpty ∨ width ≤ 0 then
    some []
  else
    let samples := data.drop (sparkStart data width)
    let maxVal := sparkMax samples
    samples.mapM fun d => glyphAt (sparkIndex d maxVal)

variable {data samples : List UInt64} {d maxVal : UInt64} {width : ℤ}

/-! ### The maximum -/

/-- One turn of the search for the maximum. -/
theorem le_max_step (m a : UInt64) :
    m.toNat ≤ (if a > m then a else m).toNat ∧ a.toNat ≤ (if a > m then a else m).toNat := by
  split
  · rename_i h
    exact ⟨(UInt64.lt_iff_toNat_lt.mp h).le, le_rfl⟩
  · rename_i h
    exact ⟨le_rfl, UInt64.le_iff_toNat_le.mp (UInt64.not_lt.mp h)⟩

theorem le_foldl_max (samples : List UInt64) (m : UInt64) :
    m.toNat ≤ (samples.foldl (fun maxVal d => if d > maxVal then d else maxVal) m).toNat ∧
      ∀ d ∈ samples, d.toNat ≤
        (samples.foldl (fun maxVal d => if d > maxVal then d else maxVal) m).toNat := by
  induction samples generalizing m with
  | nil => exact ⟨le_rfl, nofun⟩
  | cons a as ih =>
    obtain ⟨hm, has⟩ := ih (if a > m then a else m)
    obtain ⟨hma, haa⟩ := le_max_step m a
    rw [List.foldl_cons]
    constructor
    · exact hma.trans hm
    · rintro d hd
      rcases List.mem_cons.mp hd with rfl | hd
      · exact haa.trans hm
      · exact has d hd

theorem le_sparkMax (hd : d ∈ samples) : d.toNat ≤ (sparkMax samples).toNat := by
  have hle := (le_foldl_max samples 0).2 d hd
  rw [sparkMax]
  split
  · rename_i h
    rw [h] at hle
    exact hle.trans (Nat.zero_le _)
  · exact hle

/-! ### The index -/

/-- A product that wraps comes from a sample of at least 2^61, and so does a maximum that keeps the
quotient below 8. -/
theorem product_div_le {a m : ℕ} (ham : a ≤ m) (hm : m < 2 ^ 64) : a * 8 % 2 ^ 64 / m ≤ 8 := by
  rcases Nat.lt_or_ge (a * 8) (2 ^ 64) with h | h
  · rw [Nat.mod_eq_of_lt h]
    exact Nat.div_le_of_le_mul (by omega)
  · have hlt : a * 8 % 2 ^ 64 < 2 ^ 64 := Nat.mod_lt _ (by positivity)
    exact Nat.div_le_of_le_mul (by omega)

/-- The quotient is in the table before the clamp. -/
theorem castInt_bounds (hle : d.toNat ≤ maxVal.toNat) :
    0 ≤ castInt (d * 8 / maxVal) ∧ castInt (d * 8 / maxVal) ≤ 8 := by
  have hq : (d * 8 / maxVal).toNat ≤ 8 := by
    rw [UInt64.toNat_div, UInt64.toNat_mul]
    exact product_div_le hle maxVal.toNat_lt
  rw [castInt]
  generalize (d * 8 / maxVal).toNat = q at hq ⊢
  interval_cases q <;> decide

theorem sparkIndex_bounds (hle : d.toNat ≤ maxVal.toNat) :
    0 ≤ sparkIndex d maxVal ∧ sparkIndex d maxVal ≤ 8 := by
  have h := castInt_bounds hle
  rw [sparkIndex]
  split <;> omega

theorem exists_glyphAt {idx : ℤ} (h0 : 0 ≤ idx) (h8 : idx ≤ 8) : ∃ g, glyphAt idx = some g := by
  rw [glyphAt, if_pos h0]
  exact ⟨_, List.getElem?_eq_getElem (show idx.toNat < bars.length by change _ < 9; omega)⟩

/-- Every index in the table gives a glyph, and so the graph has a glyph for every sample. -/
theorem exists_mapM_glyphAt (hle : ∀ d ∈ samples, d.toNat ≤ maxVal.toNat) :
    ∃ glyphs, samples.mapM (fun d => glyphAt (sparkIndex d maxVal)) = some glyphs ∧
      glyphs.length = samples.length := by
  induction samples with
  | nil => exact ⟨[], rfl, rfl⟩
  | cons a as ih =>
    obtain ⟨gs, hgs, hlen⟩ := ih fun d hd => hle d (List.mem_cons_of_mem a hd)
    obtain ⟨h0, h8⟩ := sparkIndex_bounds (hle a List.mem_cons_self)
    obtain ⟨g, hg⟩ := exists_glyphAt h0 h8
    refine ⟨g :: gs, ?_, by rw [List.length_cons, List.length_cons, hlen]⟩
    simp [hg, hgs]

theorem length_drop_sparkStart (data : List UInt64) (width : ℤ) :
    (data.drop (sparkStart data width)).length = min data.length width.toNat := by
  rw [List.length_drop, sparkStart]
  split <;> omega

/-- A sparkline has as many glyphs as there are samples and room, and every index that it computes
is in the table, also where the product of a sample wraps around. -/
theorem renderSparkline_in_table (data : List UInt64) (width : ℤ) :
    (∃ glyphs, renderSparkline data width = some glyphs ∧
        glyphs.length = min data.length width.toNat) ∧
      ∀ d ∈ data.drop (sparkStart data width),
        0 ≤ sparkIndex d (sparkMax (data.drop (sparkStart data width))) ∧
          sparkIndex d (sparkMax (data.drop (sparkStart data width))) ≤ 8 := by
  have hle : ∀ d ∈ data.drop (sparkStart data width),
      d.toNat ≤ (sparkMax (data.drop (sparkStart data width))).toNat := fun d => le_sparkMax
  constructor
  · rw [renderSparkline]
    split
    · rename_i h
      refine ⟨[], rfl, ?_⟩
      rcases h with h | h
      · rw [List.isEmpty_iff.mp h]
        simp
      · rw [Int.toNat_of_nonpos h, Nat.min_zero, List.length_nil]
    · obtain ⟨glyphs, hg, hlen⟩ := exists_mapM_glyphAt hle
      exact ⟨glyphs, hg, hlen.trans (length_drop_sparkStart data width)⟩
  · exact fun d hd => sparkIndex_bounds (hle d hd)

end KWatch
