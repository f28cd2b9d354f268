import Mathlib

/-! # Loads from a frame

A frame is the byte string between the two packet pointers of the XDP context, and a load past
its end has no value. Multi-byte loads are native, that is little endian, so an address field
keeps in memory the order it has on the wire and a port needs a byte swap.
-/

namespace KWatch

/-- The bytes of a received frame. -/
abbrev Frame := List UInt8

def load8 (f : Frame) (off : ℕ) : Option UInt8 := f[off]?

/-- A native 16-bit word from its bytes in memory order. -/
def le16 (b₀ b₁ : UInt8) : UInt16 := UInt16.ofNat (b₀.toNat + 256 * b₁.toNat)

/-- A native 32-bit word from its bytes in memory order. -/
def le32 (b₀ b₁ b₂ b₃ : UInt8) : UInt32 :=
  UInt32.ofNat (b₀.toNat + 256 * b₁.toNat + 65536 * b₂.toNat + 16777216 * b₃.toNat)

def load16 (f : Frame) (off : ℕ) : Option UInt16 := do
  let b₀ ← load8 f off
  let b₁ ← load8 f (off + 1)
  some (le16 b₀ b₁)

def load32 (f : Frame) (off : ℕ) : Option UInt32 := do
  let b₀ ← load8 f off
  let b₁ ← load8 f (off + 1)
  let b₂ ← load8 f (off + 2)
  let b₃ ← load8 f (off + 3)
  some (le32 b₀ b₁ b₂ b₃)

/-- Swap the two bytes of a native word that was loaded from the network. -/
def bpfNtohs (x : UInt16) : UInt16 := UInt16.ofNat (x.toNat % 256 * 256 + x.toNat / 256)

/-- The numeric value of a word whose memory bytes are in network order. -/
def be32ToCpu (x : UInt32) : ℕ :=
  x.toNat % 256 * 16777216 + x.toNat / 256 % 256 * 65536 + x.toNat / 65536 % 256 * 256 +
    x.toNat / 16777216

/-- The two bytes of a 16-bit field on the wire. -/
def wire16 (x : UInt16) : Frame := [UInt8.ofNat (x.toNat / 256), UInt8.ofNat (x.toNat % 256)]

/-- The four bytes of an address as they lie in memory and on the wire. -/
def addrBytes (a : UInt32) : Frame :=
  [UInt8.ofNat (a.toNat % 256), UInt8.ofNat (a.toNat / 256 % 256),
    UInt8.ofNat (a.toNat / 65536 % 256), UInt8.ofNat (a.toNat / 16777216)]

@[simp] theorem length_wire16 (x : UInt16) : (wire16 x).length = 2 := rfl
@[simp] theorem length_addrBytes (a : UInt32) : (addrBytes a).length = 4 := rfl

theorem toNat_le16 (b₀ b₁ : UInt8) : (le16 b₀ b₁).toNat = b₀.toNat + 256 * b₁.toNat := by
  have h₀ := b₀.toNat_lt
  have h₁ := b₁.toNat_lt
  simp only [le16, UInt16.toNat_ofNat']
  omega

theorem toNat_le32 (b₀ b₁ b₂ b₃ : UInt8) : (le32 b₀ b₁ b₂ b₃).toNat =
    b₀.toNat + 256 * b₁.toNat + 65536 * b₂.toNat + 16777216 * b₃.toNat := by
  have h₀ := b₀.toNat_lt
  have h₁ := b₁.toNat_lt
  have h₂ := b₂.toNat_lt
  have h₃ := b₃.toNat_lt
  simp only [le32, UInt32.toNat_ofNat']
  omega

theorem toNat_bpfNtohs_le16 (b₀ b₁ : UInt8) :
    (bpfNtohs (le16 b₀ b₁)).toNat = 256 * b₀.toNat + b₁.toNat := by
  have h₀ := b₀.toNat_lt
  have h₁ := b₁.toNat_lt
  have hlo : (b₀.toNat + 256 * b₁.toNat) % 256 = b₀.toNat := by omega
  have hhi : (b₀.toNat + 256 * b₁.toNat) / 256 = b₁.toNat := by omega
  simp only [bpfNtohs, toNat_le16, UInt16.toNat_ofNat', hlo, hhi]
  omega

theorem bpfNtohs_le16_wire16 (x : UInt16) :
    bpfNtohs (le16 (UInt8.ofNat (x.toNat / 256)) (UInt8.ofNat (x.toNat % 256))) = x := by
  have h := x.toNat_lt
  apply UInt16.toNat_inj.mp
  simp only [toNat_bpfNtohs_le16, UInt8.toNat_ofNat']
  omega

theorem wire16_bpfNtohs_le16 (b₀ b₁ : UInt8) : wire16 (bpfNtohs (le16 b₀ b₁)) = [b₀, b₁] := by
  have h₀ := b₀.toNat_lt
  have h₁ := b₁.toNat_lt
  simp only [wire16, toNat_bpfNtohs_le16, List.cons.injEq, and_true]
  constructor <;> apply UInt8.toNat_inj.mp <;> simp only [UInt8.toNat_ofNat'] <;> omega

theorem addrBytes_le32 (b₀ b₁ b₂ b₃ : UInt8) : addrBytes (le32 b₀ b₁ b₂ b₃) = [b₀, b₁, b₂, b₃] := by
  have h₀ := b₀.toNat_lt
  have h₁ := b₁.toNat_lt
  have h₂ := b₂.toNat_lt
  have h₃ := b₃.toNat_lt
  simp only [addrBytes, toNat_le32, List.cons.injEq, and_true]
  refine ⟨?_, ?_, ?_, ?_⟩ <;> apply UInt8.toNat_inj.mp <;> simp only [UInt8.toNat_ofNat'] <;> omega

theorem le32_addrBytes (a : UInt32) :
    le32 (UInt8.ofNat (a.toNat % 256)) (UInt8.ofNat (a.toNat / 256 % 256))
      (UInt8.ofNat (a.toNat / 65536 % 256)) (UInt8.ofNat (a.toNat / 16777216)) = a := by
  have h := a.toNat_lt
  apply UInt32.toNat_inj.mp
  simp only [toNat_le32, UInt8.toNat_ofNat']
  omega

theorem be32ToCpu_le32 (b₀ b₁ b₂ b₃ : UInt8) : be32ToCpu (le32 b₀ b₁ b₂ b₃) =
    b₀.toNat * 16777216 + b₁.toNat * 65536 + b₂.toNat * 256 + b₃.toNat := by
  have h₀ := b₀.toNat_lt
  have h₁ := b₁.toNat_lt
  have h₂ := b₂.toNat_lt
  have h₃ := b₃.toNat_lt
  simp only [be32ToCpu, toNat_le32]
  omega

theorem be32ToCpu_lt (x : UInt32) : be32ToCpu x < 2 ^ 32 := by
  have h := x.toNat_lt
  simp only [be32ToCpu]
  omega

theorem be32ToCpu_injective : Function.Injective be32ToCpu := by
  intro x y h
  rw [← le32_addrBytes x, ← le32_addrBytes y, be32ToCpu_le32, be32ToCpu_le32] at h
  rw [← le32_addrBytes x, ← le32_addrBytes y]
  generalize UInt8.ofNat (x.toNat % 256) = a₀, UInt8.ofNat (x.toNat / 256 % 256) = a₁,
    UInt8.ofNat (x.toNat / 65536 % 256) = a₂, UInt8.ofNat (x.toNat / 16777216) = a₃,
    UInt8.ofNat (y.toNat % 256) = b₀, UInt8.ofNat (y.toNat / 256 % 256) = b₁,
    UInt8.ofNat (y.toNat / 65536 % 256) = b₂, UInt8.ofNat (y.toNat / 16777216) = b₃ at h ⊢
  have ha₁ := a₁.toNat_lt
  have ha₂ := a₂.toNat_lt
  have ha₃ := a₃.toNat_lt
  have hb₁ := b₁.toNat_lt
  have hb₂ := b₂.toNat_lt
  have hb₃ := b₃.toNat_lt
  have h₀ : a₀ = b₀ := UInt8.toNat_inj.mp (by omega)
  have h₁ : a₁ = b₁ := UInt8.toNat_inj.mp (by subst h₀; omega)
  have h₂ : a₂ = b₂ := UInt8.toNat_inj.mp (by subst h₀ h₁; omega)
  have h₃ : a₃ = b₃ := UInt8.toNat_inj.mp (by subst h₀ h₁ h₂; omega)
  rw [h₀, h₁, h₂, h₃]

/-! ### Native integers of any width -/

/-- The low bytes of a number in memory order. -/
def nativeBytes : ℕ → ℕ → List UInt8
  | 0, _ => []
  | n + 1, x => UInt8.ofNat x :: nativeBytes n (x / 256)

def ofNativeBytes : List UInt8 → ℕ
  | [] => 0
  | b :: t => b.toNat + 256 * ofNativeBytes t

@[simp] theorem length_nativeBytes (n x : ℕ) : (nativeBytes n x).length = n := by
  induction n generalizing x with
  | zero => rfl
  | succ n ih => simp [nativeBytes, ih]

theorem ofNativeBytes_nativeBytes (n x : ℕ) : ofNativeBytes (nativeBytes n x) = x % 256 ^ n := by
  induction n generalizing x with
  | zero => simp [nativeBytes, ofNativeBytes, Nat.mod_one]
  | succ n ih =>
    have hlow : (UInt8.ofNat x).toNat = x % 256 := by simp
    rw [nativeBytes, ofNativeBytes, ih, hlow, pow_succ', Nat.mod_mul]

/-- What lies before an offset does not matter there. -/
theorem drop_nativeBytes_append {n k : ℕ} (h : n ≤ k) (x : ℕ) (rest : List UInt8) :
    (nativeBytes n x ++ rest).drop k = rest.drop (k - n) := by
  rw [List.drop_append, List.drop_eq_nil_of_le (by simpa using h), List.nil_append,
    length_nativeBytes]

theorem take_nativeBytes_append (n x : ℕ) (rest : List UInt8) :
    (nativeBytes n x ++ rest).take n = nativeBytes n x :=
  List.take_left' (length_nativeBytes n x)

/-! ### Loads inside the frame -/

theorem load8_of_lt (f : Frame) (off : ℕ) (h : off < f.length) : ∃ b, load8 f off = some b :=
  ⟨f[off], List.getElem?_eq_getElem h⟩

theorem load16_of_lt (f : Frame) (off : ℕ) (h : off + 1 < f.length) :
    ∃ x, load16 f off = some x := by
  obtain ⟨b₀, h₀⟩ := load8_of_lt f off (by omega)
  obtain ⟨b₁, h₁⟩ := load8_of_lt f (off + 1) h
  exact ⟨le16 b₀ b₁, by simp [load16, h₀, h₁]⟩

theorem load32_of_lt (f : Frame) (off : ℕ) (h : off + 3 < f.length) :
    ∃ x, load32 f off = some x := by
  obtain ⟨b₀, h₀⟩ := load8_of_lt f off (by omega)
  obtain ⟨b₁, h₁⟩ := load8_of_lt f (off + 1) (by omega)
  obtain ⟨b₂, h₂⟩ := load8_of_lt f (off + 2) (by omega)
  obtain ⟨b₃, h₃⟩ := load8_of_lt f (off + 3) h
  exact ⟨le32 b₀ b₁ b₂ b₃, by simp [load32, h₀, h₁, h₂, h₃]⟩

theorem load8_append_right (p s : Frame) (off : ℕ) :
    load8 (p ++ s) (p.length + off) = load8 s off := by
  simp [load8, List.getElem?_append_right]

theorem load32_append_right (p s : Frame) (off : ℕ) :
    load32 (p ++ s) (p.length + off) = load32 s off := by
  simp only [load32, Nat.add_assoc, load8_append_right]

theorem load16_at {p : Frame} {n : ℕ} (h : p.length = n) (b₀ b₁ : UInt8) (s : Frame) :
    load16 (p ++ b₀ :: b₁ :: s) n = some (le16 b₀ b₁) := by
  subst h
  have h₀ := load8_append_right p (b₀ :: b₁ :: s) 0
  have h₁ := load8_append_right p (b₀ :: b₁ :: s) 1
  rw [Nat.add_zero] at h₀
  simp only [load16, h₀, h₁]
  rfl

end KWatch
