import KWatch.Library.Table

/-! # Longest matching prefixes

Addresses are numbers of `w` bits. A block fixes the leading bits of an address, and a lookup
in a table of blocks tries the longest candidate first.
-/

/-- The addresses whose leading `len` bits have the value `top`. -/
structure Block where
  len : ℕ
  top : ℕ
  deriving DecidableEq, Repr

namespace Block

variable {w : ℕ}

/-- The block of the given length around an address. -/
def around (w len a : ℕ) : Block := ⟨len, a / 2 ^ (w - len)⟩

def Covers (w : ℕ) (b : Block) (a : ℕ) : Prop := a / 2 ^ (w - b.len) = b.top

instance (w : ℕ) (b : Block) (a : ℕ) : Decidable (b.Covers w a) :=
  inferInstanceAs (Decidable (_ = _))

theorem covers_iff_around (b : Block) (a : ℕ) : b.Covers w a ↔ around w b.len a = b := by
  cases b
  simp [Covers, around]

/-- A block of full length covers one address. -/
theorem covers_full (a a' : ℕ) : (around w w a).Covers w a' ↔ a' = a := by
  simp [Covers, around]

end Block

namespace Lpm

variable {w : ℕ} {V : Type*}

/-- The value of the longest stored block around an address, up to a given length. -/
def longest (w : ℕ) (t : Table Block V) (len a : ℕ) : Option V :=
  (List.range (len + 1)).reverse.findSome? fun l => t.get? (Block.around w l a)

theorem longest_isSome_iff (t : Table Block V) (len a : ℕ) :
    (longest w t len a).isSome ↔ ∃ b ∈ t.keys, b.len ≤ len ∧ b.Covers w a := by
  simp only [longest, List.findSome?_isSome_iff, List.mem_reverse, List.mem_range,
    ← Table.mem_keys_iff_isSome]
  constructor
  · rintro ⟨l, hl, hk⟩
    exact ⟨_, hk, Nat.lt_succ_iff.mp hl, rfl⟩
  · rintro ⟨b, hk, hl, hc⟩
    exact ⟨b.len, Nat.lt_succ_iff.mpr hl, by rwa [(Block.covers_iff_around b a).mp hc]⟩

end Lpm
