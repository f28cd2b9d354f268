import KWatch.Library.OnesComplement
import KWatch.Demo.Scenarios

/-! # The two Internet checksums

The ICMP and the TCP scenario compute their checksums with two loops. One swaps every word to
network order and takes a carry away at once, the other adds native words and folds the carries at
the end. Both give the complement of the one's-complement sum of the native words.
-/

namespace KWatch

open OnesComplement

/-- The words of a buffer, an odd last byte padded by zero. -/
def words (word : UInt8 → UInt8 → UInt16) : List UInt8 → List ℕ
  | b₀ :: b₁ :: rest => (word b₀ b₁).toNat :: words word rest
  | [b] => [(word b 0).toNat]
  | [] => []

/-- The words as a little-endian machine reads them. -/
def nativeWords : List UInt8 → List ℕ := words le16

/-- The words in network order. -/
def networkWords : List UInt8 → List ℕ := words fun b₀ b₁ => bpfNtohs (le16 b₀ b₁)

variable {word : UInt8 → UInt8 → UInt16} {data before after : List UInt8} {n a : ℕ}

/-! ### Words -/

theorem words_le (data : List UInt8) : ∀ w ∈ words word data, w ≤ 0xffff := by
  induction data using words.induct with
  | case1 b₀ b₁ rest ih =>
    rw [words]
    rintro w hw
    rcases List.mem_cons.mp hw with rfl | hw
    · exact Nat.le_of_lt_succ (word b₀ b₁).toNat_lt
    · exact ih w hw
  | case2 b =>
    rintro w hw
    obtain rfl := List.mem_singleton.mp hw
    exact Nat.le_of_lt_succ (word b 0).toNat_lt
  | case3 => exact nofun

/-- A byte that is not 0 makes a word that is not 0. -/
theorem exists_word_pos (hword : ∀ b₀ b₁, b₀ ≠ 0 ∨ b₁ ≠ 0 → 0 < (word b₀ b₁).toNat)
    (h : ∃ b ∈ data, b ≠ 0) : ∃ w ∈ words word data, 0 < w := by
  obtain ⟨b, hb, hne⟩ := h
  induction data using words.induct with
  | case1 b₀ b₁ rest ih =>
    rw [words]
    rcases List.mem_cons.mp hb with rfl | hb
    · exact ⟨_, List.mem_cons_self, hword b b₁ (Or.inl hne)⟩
    rcases List.mem_cons.mp hb with rfl | hb
    · exact ⟨_, List.mem_cons_self, hword b₀ b (Or.inr hne)⟩
    · obtain ⟨w, hw, hpos⟩ := ih hb
      exact ⟨w, List.mem_cons_of_mem _ hw, hpos⟩
  | case2 b' =>
    obtain rfl := List.mem_singleton.mp hb
    exact ⟨_, List.mem_cons_self, hword b 0 (Or.inl hne)⟩
  | case3 => cases hb

theorem length_words (data : List UInt8) : (words word data).length = (data.length + 1) / 2 := by
  induction data using words.induct with
  | case1 b₀ b₁ rest ih =>
    rw [words, List.length_cons, ih, List.length_cons, List.length_cons]
    omega
  | case2 b => simp [words]
  | case3 => rfl

theorem words_append (h : before.length % 2 = 0) :
    words word (before ++ after) = words word before ++ words word after := by
  induction before using words.induct with
  | case1 b₀ b₁ rest ih =>
    rw [List.length_cons, List.length_cons] at h
    rw [List.cons_append, List.cons_append, words, words, ih (by omega), List.cons_append]
  | case2 b => simp at h
  | case3 => rfl

theorem le16_pos {b₀ b₁ : UInt8} (h : b₀ ≠ 0 ∨ b₁ ≠ 0) : 0 < (le16 b₀ b₁).toNat := by
  rw [toNat_le16]
  by_contra h0
  have h₀ : b₀ = 0 := UInt8.toNat_inj.mp (by rw [UInt8.toNat_zero]; omega)
  have h₁ : b₁ = 0 := UInt8.toNat_inj.mp (by rw [UInt8.toNat_zero]; omega)
  rcases h with h | h
  · exact h h₀
  · exact h h₁

/-! ### Byte order -/

/-- The swap of the two bytes of a word. -/
def swapBytes (n : ℕ) : ℕ := n % 256 * 256 + n / 256

/-- Swapping the bytes multiplies by 256 modulo the largest word. -/
theorem swapBytes_modEq (n : ℕ) : swapBytes n ≡ 256 * n [MOD 0xffff] := by
  have h : 256 * n = swapBytes n + 0xffff * (n / 256) := by
    rw [swapBytes]
    omega
  rw [h]
  exact (Nat.add_modulus_mul_modEq_iff.mpr rfl).symm

theorem toNat_bpfNtohs (x : UInt16) : (bpfNtohs x).toNat = swapBytes x.toNat := by
  have h := x.toNat_lt
  rw [bpfNtohs, swapBytes, UInt16.toNat_ofNat', Nat.mod_eq_of_lt (by omega)]

theorem sum_networkWords_modEq (data : List UInt8) :
    (networkWords data).sum ≡ 256 * (nativeWords data).sum [MOD 0xffff] := by
  have hword : ∀ x : UInt16, (bpfNtohs x).toNat ≡ 256 * x.toNat [MOD 0xffff] := by
    intro x
    rw [toNat_bpfNtohs]
    exact swapBytes_modEq _
  induction data using words.induct with
  | case1 b₀ b₁ rest ih =>
    rw [networkWords, nativeWords, words, words, List.sum_cons, List.sum_cons, Nat.mul_add]
    exact (hword _).add ih
  | case2 b =>
    rw [networkWords, nativeWords, words, words, List.sum_singleton, List.sum_singleton]
    exact hword _
  | case3 => rfl

theorem swapBytes_pos (h : 0 < n) : 0 < swapBytes n := by
  rw [swapBytes]
  omega

theorem bpfNtohs_le16_pos {b₀ b₁ : UInt8} (h : b₀ ≠ 0 ∨ b₁ ≠ 0) :
    0 < (bpfNtohs (le16 b₀ b₁)).toNat := by
  rw [toNat_bpfNtohs]
  exact swapBytes_pos (le16_pos h)

theorem swapBytes_le (h : n ≤ 0xffff) : swapBytes n ≤ 0xffff := by
  rw [swapBytes]
  omega

theorem swapBytes_complement (h : n ≤ 0xffff) : swapBytes (0xffff - n) = 0xffff - swapBytes n := by
  rw [swapBytes, swapBytes]
  omega

/-- The sum of the native words is the sum of the words in network order with its bytes swapped. -/
theorem swapBytes_sum (h : ∃ b ∈ data, b ≠ 0) :
    swapBytes (sum 0xffff (networkWords data)) = sum 0xffff (nativeWords data) := by
  have hnet : 0 < sum 0xffff (networkWords data) :=
    sum_pos (exists_word_pos (fun _ _ => bpfNtohs_le16_pos) h)
  have hnetle : sum 0xffff (networkWords data) ≤ 0xffff := sum_le (words_le data)
  apply eq_of_modEq
  · calc swapBytes (sum 0xffff (networkWords data))
        ≡ 256 * sum 0xffff (networkWords data) [MOD 0xffff] := swapBytes_modEq _
      _ ≡ 256 * (256 * (nativeWords data).sum) [MOD 0xffff] :=
          ((sum_modEq _ _).trans (sum_networkWords_modEq data)).mul_left 256
      _ = (nativeWords data).sum + 0xffff * (nativeWords data).sum := by ring
      _ ≡ (nativeWords data).sum [MOD 0xffff] := Nat.add_modulus_mul_modEq_iff.mpr rfl
      _ ≡ sum 0xffff (nativeWords data) [MOD 0xffff] := (sum_modEq _ _).symm
  · exact swapBytes_pos hnet
  · exact swapBytes_le hnetle
  · exact sum_pos (exists_word_pos (fun _ _ => le16_pos) h)
  · exact sum_le (words_le data)

/-! ### The loops -/

/-- The loop over words in network order takes every carry away at once. -/
theorem checksumLoop_eq (acc : ℕ) (data : List UInt8) :
    checksumLoop acc data = (networkWords data).foldl (add 0xffff) acc := by
  induction data using words.induct generalizing acc with
  | case1 b₀ b₁ rest ih => exact ih (checksumAdd acc (le16 b₀ b₁))
  | case2 b => rfl
  | case3 => rfl

theorem csumLoop_eq (acc : ℕ) (data : List UInt8) :
    csumLoop acc data = acc + (nativeWords data).sum := by
  induction data using words.induct generalizing acc with
  | case1 b₀ b₁ rest ih =>
    rw [csumLoop, ih, nativeWords, words, List.sum_cons, Nat.add_assoc]
  | case2 b =>
    rw [csumLoop, nativeWords, words, List.sum_singleton, toNat_le16, UInt8.toNat_zero,
      Nat.mul_zero, Nat.add_zero]
  | case3 => rfl

theorem toNat_not_ofNat (h : a ≤ 0xffff) : (~~~UInt16.ofNat a).toNat = 0xffff - a := by
  rw [UInt16.toNat_not, UInt16.toNat_ofNat', Nat.mod_eq_of_lt (by omega)]
  rfl

/-- The accumulator starts at the other zero. -/
theorem checksumLoop_start (h : ∃ b ∈ data, b ≠ 0) :
    checksumLoop 0xffff data = sum 0xffff (networkWords data) := by
  have hpos : ∃ w ∈ networkWords data, 0 < w :=
    exists_word_pos (fun _ _ => bpfNtohs_le16_pos) h
  have hmod : checksumLoop 0xffff data ≡ sum 0xffff (networkWords data) [MOD 0xffff] := by
    rw [checksumLoop_eq]
    calc (networkWords data).foldl (add 0xffff) 0xffff
        ≡ 0xffff + (networkWords data).sum [MOD 0xffff] := foldl_add_modEq _ _
      _ ≡ (networkWords data).sum [MOD 0xffff] := Nat.add_modEq_left
      _ ≡ sum 0xffff (networkWords data) [MOD 0xffff] := (sum_modEq _ _).symm
  apply eq_of_modEq hmod
  · rw [checksumLoop_eq]
    exact foldl_add_pos (Or.inr hpos)
  · rw [checksumLoop_eq]
    exact foldl_add_le le_rfl (words_le data)
  · exact sum_pos hpos
  · exact sum_le (words_le data)

theorem toNat_checksum (h : ∃ b ∈ data, b ≠ 0) :
    (checksum data).toNat = 0xffff - sum 0xffff (nativeWords data) := by
  have hle : sum 0xffff (networkWords data) ≤ 0xffff := sum_le (words_le data)
  rw [checksum, toNat_bpfNtohs, checksumLoop_start h, toNat_not_ofNat hle,
    swapBytes_complement hle, swapBytes_sum h]

/-- The two folds bring a sum of at most 32768 words into a word. -/
theorem fold_carries {s t : ℕ} (hpos : 0 < s) (hs : s ≤ 32768 * 0xffff)
    (ht : t = s / 65536 + s % 65536) :
    (t + t / 65536) % 65536 ≡ s [MOD 0xffff] ∧ 0 < (t + t / 65536) % 65536 ∧
      (t + t / 65536) % 65536 ≤ 0xffff := by
  have hfirst : t + 0xffff * (s / 65536) = s := by omega
  have hsecond : (t + t / 65536) % 65536 + 0xffff * (t / 65536) = t := by omega
  refine ⟨?_, by omega, by omega⟩
  calc (t + t / 65536) % 65536
      ≡ (t + t / 65536) % 65536 + 0xffff * (t / 65536) [MOD 0xffff] :=
        (Nat.add_modulus_mul_modEq_iff.mpr rfl).symm
    _ = t := hsecond
    _ ≡ t + 0xffff * (s / 65536) [MOD 0xffff] := (Nat.add_modulus_mul_modEq_iff.mpr rfl).symm
    _ = s := hfirst

theorem sum_words_le (hlen : data.length ≤ 65535) : (words word data).sum ≤ 32768 * 0xffff := by
  have h : (words word data).sum ≤ (words word data).length * 0xffff :=
    List.sum_le_card_nsmul (words word data) 0xffff (words_le data)
  rw [length_words] at h
  exact h.trans (Nat.mul_le_mul_right _ (by omega))

theorem sum_pos_of_mem {ws : List ℕ} (h : ∃ w ∈ ws, 0 < w) : 0 < ws.sum := by
  obtain ⟨w, hw, hpos⟩ := h
  exact hpos.trans_le (List.single_le_sum (fun _ _ => Nat.zero_le _) w hw)

theorem toNat_csum (hlen : data.length ≤ 65535) (h : ∃ b ∈ data, b ≠ 0) :
    (csum data).toNat = 0xffff - sum 0xffff (nativeWords data) := by
  have hwords : ∃ w ∈ nativeWords data, 0 < w := exists_word_pos (fun _ _ => le16_pos) h
  obtain ⟨hmod, hpos, hle⟩ := fold_carries (sum_pos_of_mem hwords) (sum_words_le hlen) rfl
  have heq := eq_of_modEq (hmod.trans (sum_modEq _ _).symm) hpos hle (sum_pos hwords)
    (sum_le (words_le data))
  rw [csum, csumLoop_eq, Nat.zero_add, UInt16.toNat_not, UInt16.toNat_ofNat', ← heq]
  rfl

/-! ### The result -/

/-- The bytes of a word that is written to a field are the word when it is read back. -/
theorem words_nativeBytes (x : UInt16) (after : List UInt8) :
    nativeWords (nativeBytes 2 x.toNat ++ after) = x.toNat :: nativeWords after := by
  have hx := x.toNat_lt
  have hbytes : nativeBytes 2 x.toNat = [UInt8.ofNat x.toNat, UInt8.ofNat (x.toNat / 256)] := rfl
  rw [hbytes, List.cons_append, List.cons_append, List.nil_append, nativeWords, words,
    toNat_le16, UInt8.toNat_ofNat', UInt8.toNat_ofNat']
  congr 1
  omega

/-- The two checksums agree on every buffer that is not all zero: each is the complement of the
one's-complement sum. Written to an aligned field that was zero, it brings the sum to the largest
word. -/
theorem checksums_agree (data : List UInt8) (hlen : data.length ≤ 65535)
    (hdata : ∃ b ∈ data, b ≠ 0) :
    checksum data = csum data ∧ (csum data).toNat = 0xffff - sum 0xffff (nativeWords data) ∧
      ∀ before after : List UInt8, before.length % 2 = 0 → data = before ++ [0, 0] ++ after →
        sum 0xffff (nativeWords (before ++ nativeBytes 2 (csum data).toNat ++ after)) =
          0xffff := by
  have hcsum := toNat_csum hlen hdata
  refine ⟨UInt16.toNat_inj.mp ((toNat_checksum hdata).trans hcsum.symm), hcsum, ?_⟩
  rintro before after hbefore rfl
  have hzero : nativeWords (before ++ [0, 0] ++ after) =
      nativeWords before ++ 0 :: nativeWords after := by
    rw [List.append_assoc, nativeWords, words_append hbefore]
    rfl
  rw [List.append_assoc, nativeWords, words_append hbefore]
  change sum 0xffff (nativeWords before ++ nativeWords (nativeBytes 2 _ ++ after)) = 0xffff
  rw [words_nativeBytes, hcsum, hzero]
  apply sum_complement
  · rw [← hzero]
    exact words_le _
  · rw [← hzero]
    exact exists_word_pos (fun _ _ => le16_pos) hdata

theorem checksums_agree_echo :
    checksum [8, 0, 0, 0, 4] = csum [8, 0, 0, 0, 4] ∧
      sum 0xffff (nativeWords ([8, 0] ++ nativeBytes 2 (csum [8, 0, 0, 0, 4]).toNat ++ [4])) =
        0xffff := by
  have h := checksums_agree [8, 0, 0, 0, 4] (by decide) ⟨8, by decide, by decide⟩
  exact ⟨h.1, h.2.2 [8, 0] [4] rfl rfl⟩

end KWatch
