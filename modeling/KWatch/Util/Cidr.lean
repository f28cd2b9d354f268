import KWatch.Util.Numbers

/-! # What counts as a CIDR

The parser finds an address by the rules of C strings and a prefix length by those of `std::stoi`.
It checks that nothing follows the digits of the length, but not what precedes them, and it does
not see what follows a NUL character in the address.
-/

namespace KWatch

namespace Ipv4

/-- A dotted quad, alone or followed by a slash and the decimal digits of a prefix length. -/
inductive CidrText : Text → UInt32 → UInt8 → Prop
  | host {quad : Text} {addr : UInt32} : inetPton quad = some addr → CidrText quad addr 32
  | network {quad ds : Text} {addr : UInt32} : inetPton quad = some addr → ds ≠ [] →
      (∀ c ∈ ds, isDigit c = true) → decimalValue ds ≤ 32 →
      CidrText (quad ++ '/' :: ds) addr (UInt8.ofNat (decimalValue ds))

/-- What `c_str` hides behind an address in front of a slash. -/
def Hidden (junk : Text) : Prop := (∀ c ∈ junk.head?, c = '\x00') ∧ '/' ∉ junk

/-- Blanks and at most one sign; the flag is set by a minus. -/
inductive Lead : Text → Bool → Prop
  | blanks {bs : Text} : (∀ c ∈ bs, isSpace c = true) → Lead bs false
  | plus {bs : Text} : (∀ c ∈ bs, isSpace c = true) → Lead (bs ++ ['+']) false
  | minus {bs : Text} : (∀ c ∈ bs, isSpace c = true) → Lead (bs ++ ['-']) true

/-- A prefix length with what precedes its digits; a minus is accepted in front of a zero. -/
structure Length (lead ds : Text) : Prop where
  signed : ∃ neg, Lead lead neg ∧ (neg = true → decimalValue ds = 0)
  ne_nil : ds ≠ []
  digits : ∀ c ∈ ds, isDigit c = true
  le : decimalValue ds ≤ 32

/-- The texts the parser accepts, with what it ignores in them. -/
inductive Accepted (junk : Text) : Text → Text → UInt32 → UInt8 → Prop
  | host {quad : Text} {addr : UInt32} : inetPton quad = some addr → Hidden junk →
      Accepted junk [] (quad ++ junk) addr 32
  | network {quad lead ds : Text} {addr : UInt32} : inetPton quad = some addr → Hidden junk →
      Length lead ds →
      Accepted junk lead (quad ++ junk ++ '/' :: (lead ++ ds)) addr
        (UInt8.ofNat (decimalValue ds))

/-- A text with a NUL character behind its address, or with a blank or a sign in front of the
digits of its prefix length, that is otherwise a CIDR. -/
def Misread (s : Text) : Prop :=
  ∃ junk lead addr len, Accepted junk lead s addr len ∧ (junk ≠ [] ∨ lead ≠ [])

/-! ### Addresses -/

/-- The parser of addresses stops at a NUL character. -/
theorem parse_eq_ok_iff {s : Text} {addr : UInt32} :
    parse s = .ok addr ↔
      ∃ quad junk, s = quad ++ junk ∧ inetPton quad = some addr ∧ ∀ c ∈ junk.head?, c = '\x00' := by
  have hparse : parse s = .ok addr ↔ inetPton (cStr s) = some addr := by
    unfold parse
    split <;> simp_all
  rw [hparse]
  constructor
  · intro h
    refine ⟨cStr s, s.dropWhile (· != '\x00'), List.takeWhile_append_dropWhile.symm, h, ?_⟩
    intro c hc
    have hnot := List.head?_dropWhile_not (· != '\x00') s
    rw [Option.mem_def.mp hc] at hnot
    simpa using hnot
  · rintro ⟨quad, junk, rfl, h, hjunk⟩
    have hquad : ∀ c ∈ quad, (c != '\x00') = true := by
      intro c hc
      rw [bne_iff_ne]
      rintro rfl
      exact notMem_of_inetPton h (by decide) (by decide) hc
    rw [cStr, Scan.takeWhile_append hquad (fun c hc => by simp [hjunk c hc])]
    exact h

/-! ### Prefix lengths -/

/-- The reader of signs, behind blanks. -/
theorem exists_lead (s : Text) :
    ∃ lead, s = lead ++ (readSign (s.dropWhile isSpace)).2 ∧
      Lead lead (readSign (s.dropWhile isSpace)).1 := by
  have hsplit : s = s.takeWhile isSpace ++ s.dropWhile isSpace :=
    List.takeWhile_append_dropWhile.symm
  have hblank : ∀ c ∈ s.takeWhile isSpace, isSpace c = true := fun c hc => List.mem_takeWhile_imp hc
  generalize s.takeWhile isSpace = bs at *
  generalize s.dropWhile isSpace = r at *
  subst hsplit
  unfold readSign
  split
  · exact ⟨bs ++ ['-'], by simp, .minus hblank⟩
  · exact ⟨bs ++ ['+'], by simp, .plus hblank⟩
  · exact ⟨bs, rfl, .blanks hblank⟩

theorem readSign_lead {lead ds : Text} {neg : Bool} (h : Lead lead neg) (hne : ds ≠ [])
    (hdig : ∀ c ∈ ds, isDigit c = true) :
    readSign ((lead ++ ds).dropWhile isSpace) = (neg, ds) := by
  cases h with
  | blanks hb =>
    obtain ⟨c, ds, rfl⟩ := List.exists_cons_of_ne_nil hne
    have hc : isDigit c = true := hdig c List.mem_cons_self
    rw [Scan.dropWhile_append hb (fun d hd => by
      obtain rfl : c = d := by simpa using hd
      exact isSpace_of_isDigit hc)]
    exact readSign_of_isDigit hc ds
  | plus hb =>
    rw [List.append_assoc, Scan.dropWhile_append hb (fun d hd => by
      obtain rfl : '+' = d := by simpa using hd
      decide)]
    rfl
  | minus hb =>
    rw [List.append_assoc, Scan.dropWhile_append hb (fun d hd => by
      obtain rfl : '-' = d := by simpa using hd
      decide)]
    rfl

/-- A number that is read to the end of the text. -/
theorem exists_of_stoi_whole {s : Text} {p : ℤ} (h : stoi s = some (p, s.length)) :
    ∃ lead neg ds, s = lead ++ ds ∧ Lead lead neg ∧ ds ≠ [] ∧ (∀ c ∈ ds, isDigit c = true) ∧
      p = if neg then -(decimalValue ds : ℤ) else decimalValue ds := by
  obtain ⟨lead, hsplit, hlead⟩ := exists_lead s
  unfold stoi at h
  dsimp only at h
  generalize readSign (s.dropWhile isSpace) = signed at *
  obtain ⟨neg, r⟩ := signed
  dsimp only at hsplit hlead h
  by_cases hnil : r.takeWhile isDigit = []
  · rw [if_pos hnil] at h
    cases h
  · rw [if_neg hnil] at h
    generalize hv : (if neg = true then -(decimalValue (r.takeWhile isDigit) : ℤ)
      else decimalValue (r.takeWhile isDigit)) = v at h
    split at h
    · cases h
    · rw [Option.some.injEq, Prod.mk.injEq] at h
      obtain ⟨rfl, hpos⟩ := h
      -- the digits reach the end, because so many characters were read
      have hds : r.takeWhile isDigit = r := by
        have hpre : r.takeWhile isDigit <+: r := List.takeWhile_prefix _
        apply hpre.eq_of_length
        have hne : 0 < (r.takeWhile isDigit).length := List.length_pos_iff.mpr hnil
        have hle := hpre.length_le
        have hlen : s.length = lead.length + r.length := by rw [hsplit, List.length_append]
        omega
      rw [hds] at hv hnil
      exact ⟨lead, neg, r, hsplit, hlead, hnil, List.takeWhile_eq_self_iff.mp hds, hv.symm⟩

/-- A prefix length is read whole. -/
theorem stoi_of_length {lead ds : Text} (h : Length lead ds) :
    stoi (lead ++ ds) = some ((decimalValue ds : ℤ), (lead ++ ds).length) := by
  obtain ⟨neg, hlead, hzero⟩ := h.signed
  have hle := h.le
  have htake : ds.takeWhile isDigit = ds := List.takeWhile_eq_self_iff.mpr h.digits
  have hval : (if neg = true then -(decimalValue ds : ℤ) else decimalValue ds) = decimalValue ds := by
    cases neg with
    | true => simp [hzero rfl]
    | false => rfl
  unfold stoi
  rw [readSign_lead hlead h.ne_nil h.digits]
  dsimp only
  rw [htake, if_neg h.ne_nil, hval, if_neg (by omega), Nat.sub_self, Nat.sub_zero]

/-- The prefix lengths that are read whole and lie in the range. -/
theorem length_of_stoi {s : Text} {p : ℤ} (h : stoi s = some (p, s.length))
    (hrange : ¬(p < 0 ∨ 32 < p)) :
    ∃ lead ds, s = lead ++ ds ∧ Length lead ds ∧ p = decimalValue ds := by
  obtain ⟨lead, neg, ds, hsplit, hlead, hnil, hdig, hp⟩ := exists_of_stoi_whole h
  have hval : p = decimalValue ds ∧ (neg = true → decimalValue ds = 0) := by
    cases neg with
    | true =>
      rw [if_pos rfl] at hp
      omega
    | false =>
      rw [if_neg Bool.false_ne_true] at hp
      exact ⟨hp, nofun⟩
  exact ⟨lead, ds, hsplit, ⟨⟨neg, hlead, hval.2⟩, hnil, hdig, by omega⟩, hval.1⟩

/-! ### The parser -/

/-- The part in front of the first slash. -/
theorem takeWhile_slash {front : Text} (h : '/' ∉ front) (rest : Text) :
    (front ++ '/' :: rest).takeWhile (· != '/') = front := by
  apply Scan.takeWhile_append
  · intro c hc
    rw [bne_iff_ne]
    rintro rfl
    exact h hc
  · simp

/-- The part behind it. -/
theorem drop_slash (front rest : Text) :
    (front ++ '/' :: rest).drop (front.length + 1) = rest := by
  rw [List.drop_length_add_append]
  rfl

theorem slash_notMem {quad junk : Text} {addr : UInt32} (hquad : inetPton quad = some addr)
    (hjunk : Hidden junk) : '/' ∉ quad ++ junk := by
  rw [List.mem_append, not_or]
  exact ⟨notMem_of_inetPton hquad (by decide) (by decide), hjunk.2⟩

theorem Accepted.parseCidr {junk lead s : Text} {addr : UInt32} {len : UInt8}
    (h : Accepted junk lead s addr len) : parseCidr s = .ok (addr, len) := by
  cases h with
  | @host quad _ hquad hjunk =>
    have hslash : '/' ∉ quad ++ junk := slash_notMem hquad hjunk
    rw [Ipv4.parseCidr, if_pos hslash, parse_eq_ok_iff.mpr ⟨quad, junk, rfl, hquad, hjunk.1⟩]
  | @network quad lead ds _ hquad hjunk hlen =>
    have hslash : '/' ∉ quad ++ junk := slash_notMem hquad hjunk
    have hle := hlen.le
    rw [Ipv4.parseCidr, if_neg (by simp)]
    dsimp only
    rw [takeWhile_slash hslash, drop_slash, parse_eq_ok_iff.mpr ⟨quad, junk, rfl, hquad, hjunk.1⟩,
      stoi_of_length hlen]
    dsimp only
    rw [if_neg (fun hne => hne rfl), if_neg (by omega), Int.toNat_natCast]

theorem accepted_of_parseCidr {s : Text} {addr : UInt32} {len : UInt8}
    (h : parseCidr s = .ok (addr, len)) : ∃ junk lead, Accepted junk lead s addr len := by
  unfold parseCidr at h
  by_cases hslash : '/' ∉ s
  · rw [if_pos hslash] at h
    split at h
    · next hp =>
      obtain ⟨quad, junk, rfl, hquad, hjunk⟩ := parse_eq_ok_iff.mp hp
      cases h
      exact ⟨junk, [], .host hquad ⟨hjunk, fun hm => hslash (List.mem_append_right _ hm)⟩⟩
    · cases h
  · rw [if_neg hslash] at h
    dsimp only at h
    obtain ⟨front, rest, rfl, hfront⟩ := List.eq_append_cons_of_mem (not_not.mp hslash)
    rw [takeWhile_slash hfront, drop_slash] at h
    split at h
    · cases h
    · next hp =>
      obtain ⟨quad, junk, rfl, hquad, hjunk⟩ := parse_eq_ok_iff.mp hp
      split at h
      · cases h
      · next p pos hstoi =>
        by_cases hpos : pos = rest.length
        · rw [if_neg (not_not.mpr hpos)] at h
          split at h
          · cases h
          · next hrange =>
            subst hpos
            obtain ⟨lead, ds, rfl, hlen, rfl⟩ := length_of_stoi hstoi hrange
            cases h
            rw [Int.toNat_natCast]
            have hhidden : Hidden junk := ⟨hjunk, fun hm => hfront (List.mem_append_right _ hm)⟩
            exact ⟨junk, lead, .network hquad hhidden hlen⟩
        · rw [if_pos hpos] at h
          cases h

theorem parseCidr_eq_ok_iff {s : Text} {addr : UInt32} {len : UInt8} :
    parseCidr s = .ok (addr, len) ↔ ∃ junk lead, Accepted junk lead s addr len := by
  constructor
  · exact accepted_of_parseCidr
  · rintro ⟨junk, lead, h⟩
    exact h.parseCidr

/-! ### What is misread -/

theorem accepted_nil_iff {s : Text} {addr : UInt32} {len : UInt8} :
    Accepted [] [] s addr len ↔ CidrText s addr len := by
  have hnil : Hidden [] := ⟨by simp, by simp⟩
  constructor
  · intro h
    cases h with
    | host hquad _ =>
      rw [List.append_nil]
      exact .host hquad
    | network hquad _ hlen =>
      rw [List.append_nil]
      exact .network hquad hlen.ne_nil hlen.digits hlen.le
  · intro h
    cases h with
    | @host quad _ hquad =>
      have h := Accepted.host hquad hnil
      rwa [List.append_nil] at h
    | @network quad ds _ hquad hne hdig hle =>
      have hlead : Lead [] false := .blanks (by simp)
      have h := Accepted.network hquad hnil ⟨⟨false, hlead, nofun⟩, hne, hdig, hle⟩
      rwa [List.append_nil] at h

/-- Every CIDR is accepted. -/
theorem CidrText.parseCidr {s : Text} {addr : UInt32} {len : UInt8} (h : CidrText s addr len) :
    parseCidr s = .ok (addr, len) :=
  (accepted_nil_iff.mpr h).parseCidr

/-- The characters of a CIDR. -/
def isCidrChar (c : Char) : Bool := isDigit c || c == '.' || c == '/'

theorem CidrText.isCidrChar {s : Text} {addr : UInt32} {len : UInt8} (h : CidrText s addr len) :
    ∀ c ∈ s, isCidrChar c = true := by
  have hquad : ∀ {quad : Text} {addr : UInt32}, inetPton quad = some addr →
      ∀ c ∈ quad, Ipv4.isCidrChar c = true := by
    intro quad addr h c hc
    rcases mem_of_inetPton h c hc with hd | rfl
    · simp [Ipv4.isCidrChar, hd]
    · rfl
  intro c hc
  cases h with
  | host h => exact hquad h c hc
  | network h _ hdig _ =>
    rcases List.mem_append.mp hc with hc | hc
    · exact hquad h c hc
    · rcases List.mem_cons.mp hc with rfl | hc
      · rfl
      · simp [Ipv4.isCidrChar, hdig c hc]

/-- What the parser ignores in a text starts or ends with a character that no CIDR has. -/
theorem Lead.exists_char {lead : Text} {neg : Bool} (h : Lead lead neg) (hne : lead ≠ []) :
    ∃ c ∈ lead, isCidrChar c = false := by
  have hblank : ∀ c, isSpace c = true → isCidrChar c = false := by
    intro c hc
    simp only [isSpace, Bool.or_eq_true, beq_iff_eq] at hc
    rcases hc with ((((rfl | rfl) | rfl) | rfl) | rfl) | rfl <;> rfl
  cases h with
  | blanks hb =>
    obtain ⟨c, bs, rfl⟩ := List.exists_cons_of_ne_nil hne
    exact ⟨c, List.mem_cons_self, hblank c (hb c List.mem_cons_self)⟩
  | plus => exact ⟨'+', by simp, rfl⟩
  | minus => exact ⟨'-', by simp, rfl⟩

theorem Hidden.exists_char {junk : Text} (h : Hidden junk) (hne : junk ≠ []) :
    ∃ c ∈ junk, isCidrChar c = false := by
  obtain ⟨c, t, rfl⟩ := List.exists_cons_of_ne_nil hne
  obtain rfl : c = '\x00' := h.1 c rfl
  exact ⟨_, List.mem_cons_self, rfl⟩

theorem Misread.not_cidrText {s : Text} {addr : UInt32} {len : UInt8} (h : Misread s) :
    ¬CidrText s addr len := by
  intro hs
  obtain ⟨junk, lead, addr', len', hacc, hne⟩ := h
  have hbad : ∃ c ∈ s, isCidrChar c = false := by
    cases hacc with
    | host _ hjunk =>
      obtain ⟨c, hc, hbad⟩ := hjunk.exists_char (hne.resolve_right fun h => h rfl)
      exact ⟨c, List.mem_append_right _ hc, hbad⟩
    | network _ hjunk hlen =>
      rcases hne with hne | hne
      · obtain ⟨c, hc, hbad⟩ := hjunk.exists_char hne
        exact ⟨c, by simp [hc], hbad⟩
      · obtain ⟨neg, hlead, -⟩ := hlen.signed
        obtain ⟨c, hc, hbad⟩ := hlead.exists_char hne
        exact ⟨c, by simp [hc], hbad⟩
  obtain ⟨c, hc, hbad⟩ := hbad
  rw [hs.isCidrChar c hc] at hbad
  cases hbad

/-- The parser accepts a text as the grammar of CIDRs says exactly if it does not misread it. -/
theorem parseCidr_grammar_iff (s : Text) :
    (∀ addr len, parseCidr s = .ok (addr, len) ↔ CidrText s addr len) ↔ ¬Misread s := by
  constructor
  · intro h hm
    obtain ⟨junk, lead, addr, len, hacc, hne⟩ := hm
    have hs : CidrText s addr len := (h addr len).mp hacc.parseCidr
    exact Misread.not_cidrText ⟨junk, lead, addr, len, hacc, hne⟩ hs
  · intro hm addr len
    rw [parseCidr_eq_ok_iff, ← accepted_nil_iff]
    constructor
    · rintro ⟨junk, lead, hacc⟩
      obtain ⟨rfl, rfl⟩ : junk = [] ∧ lead = [] := by
        by_contra hne
        exact hm ⟨junk, lead, addr, len, hacc, not_and_or.mp hne⟩
      exact hacc
    · intro hacc
      exact ⟨[], [], hacc⟩

/-- A blank and a sign in front of a prefix length that blocks every address. -/
theorem signed_prefix_accepted :
    ¬∀ s addr len, parseCidr s = .ok (addr, len) ↔ CidrText s addr len := by
  intro h
  have hs : CidrText "10.0.0.0/ -0".toList 0x0000000A 0 := (h _ _ _).mp (by decide)
  have hbad := hs.isCidrChar '-' (by decide)
  exact absurd hbad (by decide)

end Ipv4

end KWatch
