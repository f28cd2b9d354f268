import KWatch.Util.Ipv4

/-! # Numbers in texts

The conversions of the C library between integers and decimal digits, as the owner file, the
process table and the numeric options use them. Reading skips blanks and accepts a sign.
-/

namespace KWatch

open Ipv4

/-- `%d`. -/
def printInt (n : ℤ) : Text :=
  if n < 0 then '-' :: Nat.toDigits 10 n.natAbs else Nat.toDigits 10 n.natAbs

/-- The sign and the digits at the front of a text, after its blanks, and what follows them. -/
def scanNumber (s : Text) : Option (Bool × ℕ × Text) :=
  let signed := readSign (s.dropWhile isSpace)
  let ds := signed.2.takeWhile isDigit
  if ds = [] then none else some (signed.1, decimalValue ds, signed.2.dropWhile isDigit)

/-- The saturating value of `strtol`. -/
def longValue (neg : Bool) (n : ℕ) : ℤ :=
  if neg then max (-9223372036854775808) (-(n : ℤ)) else min 9223372036854775807 (n : ℤ)

/-- The value of `strtoull`, which negates modulo `2 ^ 64`. -/
def ullValue (neg : Bool) (n : ℕ) : UInt64 :=
  if 2 ^ 64 ≤ n then 0xFFFFFFFFFFFFFFFF else if neg then 0 - UInt64.ofNat n else UInt64.ofNat n

/-- `std::stoull`: the value and the number of characters read, or an exception. -/
def stoull (s : Text) : Option (UInt64 × ℕ) :=
  match scanNumber s with
  | none => none
  | some (neg, n, rest) =>
    if 2 ^ 64 ≤ n then none else some (ullValue neg n, s.length - rest.length)

/-! ### Reading back -/

theorem isSpace_of_isDigit {c : Char} (h : isDigit c = true) : isSpace c = false := by
  by_contra hs
  simp only [isSpace, Bool.not_eq_false, Bool.or_eq_true, beq_iff_eq] at hs
  rcases hs with ((((rfl | rfl) | rfl) | rfl) | rfl) | rfl <;> simp [isDigit] at h

theorem readSign_of_isDigit {c : Char} (h : isDigit c = true) (t : Text) :
    readSign (c :: t) = (false, c :: t) := by
  unfold readSign
  split
  · simp_all [isDigit]
  · simp_all [isDigit]
  · rfl

theorem scanNumber_space (s : Text) : scanNumber (' ' :: s) = scanNumber s := rfl

theorem scanNumber_of_sign {s ds : Text} {neg : Bool} {rest : Text} (hne : ds ≠ [])
    (hd : ∀ c ∈ ds, isDigit c = true) (hs : readSign (s.dropWhile isSpace) = (neg, ds ++ rest))
    (hr : ∀ c ∈ rest.head?, isDigit c = false) :
    scanNumber s = some (neg, decimalValue ds, rest) := by
  simp [scanNumber, hs, Scan.takeWhile_append hd hr, Scan.dropWhile_append hd hr, hne]

theorem scanNumber_digits {ds rest : Text} (hne : ds ≠ []) (hd : ∀ c ∈ ds, isDigit c = true)
    (hr : ∀ c ∈ rest.head?, isDigit c = false) :
    scanNumber (ds ++ rest) = some (false, decimalValue ds, rest) := by
  refine scanNumber_of_sign hne hd ?_ hr
  obtain ⟨c, ds, rfl⟩ := List.exists_cons_of_ne_nil hne
  have hdig : isDigit c = true := hd c List.mem_cons_self
  rw [List.cons_append, List.dropWhile_cons_of_neg (by simp [isSpace_of_isDigit hdig]),
    readSign_of_isDigit hdig]

theorem scanNumber_toDigits (n : ℕ) (rest : Text) (hr : ∀ c ∈ rest.head?, isDigit c = false) :
    scanNumber (Nat.toDigits 10 n ++ rest) = some (false, n, rest) := by
  rw [scanNumber_digits Nat.toDigits_ne_nil (fun _ => isDigit_of_mem_toDigits) hr,
    decimalValue_toDigits]

/-- `std::stoull` of digits alone. -/
theorem stoull_digits {ds : Text} (hne : ds ≠ []) (hd : ∀ c ∈ ds, isDigit c = true) :
    stoull ds = if 2 ^ 64 ≤ decimalValue ds then none
      else some (UInt64.ofNat (decimalValue ds), ds.length) := by
  have hscan : scanNumber (ds ++ []) = some (false, decimalValue ds, []) :=
    scanNumber_digits hne hd nofun
  rw [List.append_nil] at hscan
  rw [stoull, hscan]
  dsimp only
  split
  · rfl
  · rename_i h
    rw [ullValue, if_neg h]
    rfl

theorem scanNumber_printInt (i : ℤ) (rest : Text) (hr : ∀ c ∈ rest.head?, isDigit c = false) :
    scanNumber (printInt i ++ rest) = some (decide (i < 0), i.natAbs, rest) := by
  unfold printInt
  split
  · next h =>
    have hs : readSign (('-' :: Nat.toDigits 10 i.natAbs ++ rest).dropWhile isSpace) =
        (true, Nat.toDigits 10 i.natAbs ++ rest) := rfl
    rw [scanNumber_of_sign Nat.toDigits_ne_nil (fun _ => isDigit_of_mem_toDigits) hs hr,
      decimalValue_toDigits, decide_eq_true h]
  · next h => simp [scanNumber_toDigits _ _ hr, h]

end KWatch
