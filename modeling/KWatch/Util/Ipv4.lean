import KWatch.Wire.Bytes
import KWatch.Library.Text

/-! # Addresses and networks as text

The text functions of `src/util/ipv4.cpp`, with the parts of the C and C++ libraries they rest
on: `inet_pton` for dotted quads, which stops at a NUL character, `inet_ntop`, which prints them, and
`std::stoi` for the prefix length, which skips leading blanks and reads a sign.
-/

namespace KWatch

/-- The characters of a `std::string`. -/
abbrev Text := List Char

/-- Membership in a list of texts is tested with their equality. -/
instance : LawfulBEq Text := inferInstance

namespace Ipv4

def isDigit (c : Char) : Bool := '0' ≤ c && c ≤ '9'

def digitValue (c : Char) : ℕ := c.toNat - '0'.toNat

/-- The blanks `std::isspace` accepts. -/
def isSpace (c : Char) : Bool :=
  c == ' ' || c == '\t' || c == '\n' || c == '\x0b' || c == '\x0c' || c == '\r'

/-- The scanner of `inet_pton`: finished octets, the current one, and whether it has a digit. -/
structure PtonState where
  done : List UInt8
  cur : ℕ
  sawDigit : Bool
  deriving DecidableEq, Repr

def ptonStep (s : PtonState) (c : Char) : Option PtonState :=
  if isDigit c then
    let new := s.cur * 10 + digitValue c
    -- an octet has no leading zero
    if s.sawDigit && s.cur == 0 then none
    else if 255 < new then none
    else some { s with cur := new, sawDigit := true }
  else if c = '.' ∧ s.sawDigit = true then
    if s.done.length = 3 then none
    else some ⟨s.done ++ [UInt8.ofNat s.cur], 0, false⟩
  else none

/-- `inet_pton` for `AF_INET`; the address as it lies in memory. -/
def inetPton (s : Text) : Option UInt32 := do
  let r ← s.foldlM ptonStep ⟨[], 0, false⟩
  match r.done, r.sawDigit with
  | [a, b, c], true => some (le32 a b c (UInt8.ofNat r.cur))
  | _, _ => none

/-- The string `c_str` shows to a C function. -/
def cStr (s : Text) : Text := s.takeWhile (· != '\x00')

def parse (ip : Text) : Except String UInt32 :=
  match inetPton (cStr ip) with
  | none => .error "Invalid IPv4 address format"
  | some addr => .ok addr

/-- The value of a run of digits. -/
def decimalValue (ds : Text) : ℕ := ds.foldl (fun n c => n * 10 + digitValue c) 0

def readSign : Text → Bool × Text
  | '-' :: t => (true, t)
  | '+' :: t => (false, t)
  | t => (false, t)

/-- `std::stoi`: the value and the number of characters read, or an exception. -/
def stoi (s : Text) : Option (ℤ × ℕ) :=
  let signed := readSign (s.dropWhile isSpace)
  let ds := signed.2.takeWhile isDigit
  let v : ℤ := if signed.1 then -(decimalValue ds : ℤ) else decimalValue ds
  if ds = [] then none
  else if v < -2147483648 ∨ 2147483647 < v then none
  else some (v, s.length - (signed.2.length - ds.length))

def parseCidr (cidr : Text) : Except String (UInt32 × UInt8) :=
  if '/' ∉ cidr then
    match parse cidr with
    | .ok addr => .ok (addr, 32)
    | .error _ => .error "Invalid CIDR format"
  else
    let ipPart := cidr.takeWhile (· != '/')
    let prefixPart := cidr.drop (ipPart.length + 1)
    match parse ipPart with
    | .error _ => .error "Invalid IP in CIDR"
    | .ok addr =>
      match stoi prefixPart with
      | none => .error "Invalid prefix in CIDR"
      | some (p, pos) =>
        if pos ≠ prefixPart.length then .error "Invalid prefix in CIDR"
        else if p < 0 ∨ 32 < p then .error "Prefix out of range"
        else .ok (addr, UInt8.ofNat p.toNat)

example : parseCidr "10.0.0.0/8".toList = .ok (0x0000000A, 8) := by decide

theorem parseCidr_prefixlen_le {s : Text} {addr : UInt32} {len : UInt8}
    (h : parseCidr s = .ok (addr, len)) : len.toNat ≤ 32 := by
  unfold parseCidr at h
  split at h
  · split at h
    · cases h; decide
    · cases h
  · dsimp only at h
    split at h
    · cases h
    · split at h
      · cases h
      · next p pos _ =>
        split_ifs at h with hpos hrange
        cases h
        have hp : p.toNat ≤ 32 := by omega
        rw [UInt8.toNat_ofNat']
        omega

/-! ### Printing -/

/-- `INET_ADDRSTRLEN`. -/
def addrStrLen : ℕ := 16

/-- `inet_ntop` for `AF_INET`, which fails when the text and its NUL do not fit. -/
def inetNtop (ip : UInt32) (size : ℕ) : Option Text :=
  let quad := ['.'].intercalate ((addrBytes ip).map fun b => Nat.toDigits 10 b.toNat)
  if quad.length < size then some quad else none

def format (ip : UInt32) : Text := (inetNtop ip addrStrLen).getD "<invalid>".toList

theorem isDigit_eq (c : Char) : isDigit c = c.isDigit := by
  simp [isDigit, Char.isDigit, Char.le_def]

theorem decimalValue_toDigits (n : ℕ) : decimalValue (Nat.toDigits 10 n) = n := by
  simpa [decimalValue, Nat.ofDigitChars, digitValue, Nat.mul_comm]
    using Nat.ofDigitChars_ten_toDigits (n := n)

theorem isDigit_of_mem_toDigits {n : ℕ} {c : Char} (h : c ∈ Nat.toDigits 10 n) :
    isDigit c = true := by
  rw [isDigit_eq]
  exact Scan.isDigit_toDigits n c h

theorem length_toDigits_octet (b : UInt8) : (Nat.toDigits 10 b.toNat).length ≤ 3 := by
  have h := b.toNat_lt
  exact (Nat.length_toDigits_le_iff (by decide) (by decide)).mpr (by omega)

/-- The buffer of `format` holds every address. -/
theorem format_eq (ip : UInt32) :
    format ip = ['.'].intercalate ((addrBytes ip).map fun b => Nat.toDigits 10 b.toNat) := by
  have hlen : (['.'].intercalate ((addrBytes ip).map fun b => Nat.toDigits 10 b.toNat)).length <
      addrStrLen := by
    have h₀ := length_toDigits_octet (UInt8.ofNat (ip.toNat % 256))
    have h₁ := length_toDigits_octet (UInt8.ofNat (ip.toNat / 256 % 256))
    have h₂ := length_toDigits_octet (UInt8.ofNat (ip.toNat / 65536 % 256))
    have h₃ := length_toDigits_octet (UInt8.ofNat (ip.toNat / 16777216))
    simp only [addrBytes, addrStrLen, List.intercalate, List.map_cons, List.map_nil,
      List.intersperse_cons_cons, List.intersperse_singleton, List.flatten_cons, List.flatten_nil,
      List.length_append, List.length_cons, List.length_nil]
    omega
  simp only [format, inetNtop, if_pos hlen, Option.getD_some]

theorem digitChar_of_lt {d : ℕ} (h : d < 10) :
    isDigit d.digitChar = true ∧ digitValue d.digitChar = d := by
  interval_cases d <;> decide

/-- The scanner reads a printed octet whole. -/
theorem foldlM_ptonStep_toDigits {n : ℕ} (h : n ≤ 255) (done : List UInt8) :
    (Nat.toDigits 10 n).foldlM ptonStep ⟨done, 0, false⟩ = some ⟨done, n, true⟩ := by
  induction n using Nat.strong_induction_on with
  | _ n ih =>
    rw [Nat.toDigits_eq_if (by decide)]
    split
    · next hlt =>
      obtain ⟨hdig, hval⟩ := digitChar_of_lt hlt
      simp [ptonStep, hdig, hval, show ¬ 255 < n by omega]
    · next hge =>
      obtain ⟨hdig, hval⟩ := digitChar_of_lt (Nat.mod_lt n (by decide : 0 < 10))
      have hsum : n / 10 * 10 + n % 10 = n := by omega
      have hne : n / 10 ≠ 0 := by omega
      simp [ih (n / 10) (by omega) (by omega), ptonStep, hdig, hval, hsum, hne, h]

/-- A point ends the octet. -/
theorem foldlM_ptonStep_octet (b : UInt8) {done : List UInt8} (h : done.length < 3) (rest : Text) :
    (Nat.toDigits 10 b.toNat ++ '.' :: rest).foldlM ptonStep ⟨done, 0, false⟩ =
      rest.foldlM ptonStep ⟨done ++ [b], 0, false⟩ := by
  have hb : b.toNat ≤ 255 := by
    have := b.toNat_lt
    omega
  have hpoint : ptonStep ⟨done, b.toNat, true⟩ '.' = some ⟨done ++ [b], 0, false⟩ := by
    simp [ptonStep, isDigit, show done.length ≠ 3 by omega]
  rw [List.foldlM_append, foldlM_ptonStep_toDigits hb]
  simp [hpoint]

theorem inetPton_format (ip : UInt32) : inetPton (format ip) = some ip := by
  have hlast : (UInt8.ofNat (ip.toNat / 16777216)).toNat ≤ 255 := by
    have := (UInt8.ofNat (ip.toNat / 16777216)).toNat_lt
    omega
  rw [format_eq]
  simp only [addrBytes, List.intercalate, List.map_cons, List.map_nil,
    List.intersperse_cons_cons, List.intersperse_singleton, List.flatten_cons, List.flatten_nil,
    List.cons_append, List.nil_append, List.append_nil]
  simp only [inetPton, foldlM_ptonStep_octet, foldlM_ptonStep_toDigits hlast, List.nil_append,
    List.cons_append, List.length_cons, List.length_nil, Nat.reduceAdd, Nat.reduceLT,
    Option.bind_eq_bind, Option.bind_some, UInt8.ofNat_toNat, le32_addrBytes]

/-! ### The characters of an address -/

/-- A scan goes over digits and points only. -/
theorem mem_of_foldlM_ptonStep {s : Text} {r r' : PtonState} (h : s.foldlM ptonStep r = some r') :
    ∀ c ∈ s, isDigit c = true ∨ c = '.' := by
  induction s generalizing r with
  | nil => simp
  | cons c s ih =>
    rw [List.foldlM_cons] at h
    obtain ⟨r₁, hstep, hrest⟩ := Option.bind_eq_some_iff.mp h
    intro d hd
    rcases List.mem_cons.mp hd with rfl | hd
    · unfold ptonStep at hstep
      by_cases hdig : isDigit d = true
      · exact .inl hdig
      · rw [if_neg hdig] at hstep
        right
        by_contra hpoint
        rw [if_neg (fun hp => hpoint hp.1)] at hstep
        cases hstep
    · exact ih hrest d hd

theorem mem_of_inetPton {s : Text} {addr : UInt32} (h : inetPton s = some addr) :
    ∀ c ∈ s, isDigit c = true ∨ c = '.' := by
  obtain ⟨r, hr, -⟩ := Option.bind_eq_some_iff.mp h
  exact mem_of_foldlM_ptonStep hr

theorem notMem_of_inetPton {s : Text} {addr : UInt32} (h : inetPton s = some addr) {c : Char}
    (hdig : isDigit c = false) (hpoint : c ≠ '.') : c ∉ s := by
  intro hm
  rcases mem_of_inetPton h c hm with hd | hp
  · rw [hdig] at hd
    cases hd
  · exact hpoint hp

theorem mem_format {ip : UInt32} {c : Char} (h : c ∈ format ip) :
    c.isDigit = true ∨ c = '.' := by
  rw [← isDigit_eq]
  exact mem_of_inetPton (inetPton_format ip) c h

end Ipv4

end KWatch
