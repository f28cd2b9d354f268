import KWatch.Cli.Parser
import KWatch.Tui.Input
import KWatch.Util.Cidr

/-! # Numbers on the command line and in prompts

Three functions read a 32-bit number from a text. All of them leave the reading to `std::stoul`,
which skips blanks, takes a sign and negates modulo 2^64; one of them looks at the digits itself,
but only where its unit could have stood and does not.
-/

namespace KWatch

open Ipv4

/-- A number as an option is meant to be written: decimal digits and nothing else. -/
structure IsNumber (s : Text) (n : UInt32) : Prop where
  ne_nil : s ≠ []
  digits : ∀ c ∈ s, isDigit c = true
  value : decimalValue s = n.toNat

/-- The value of digits behind a sign in 64 bits. -/
def signedValue (neg : Bool) (v : ℕ) : ℕ := if neg then (2 ^ 64 - v) % 2 ^ 64 else v

/-- Digits behind blanks or a sign, which are read as a 32-bit number all the same. -/
def Misread (s : Text) (n : UInt32) : Prop :=
  ∃ lead neg ds, s = lead ++ ds ∧ lead ≠ [] ∧ Lead lead neg ∧ ds ≠ [] ∧
    (∀ c ∈ ds, isDigit c = true) ∧ decimalValue ds < 2 ^ 64 ∧
    signedValue neg (decimalValue ds) = n.toNat

/-- The units of the demo options. -/
def units : List Text := ["s".toList, "pps".toList]

/-- The grammar of numeric options at one text. A unit makes no difference to a text that does not
end in it. -/
structure NumericGrammar (s : Text) : Prop where
  arg : ∀ option n, parseU32Arg option s = .ok n ↔ IsNumber s n
  input : ∀ n, App.parseU32Input s = some n ↔ IsNumber s n
  option : ∀ option n, parseU32Option option s [] = .ok n ↔ IsNumber s n
  unit : ∀ unit ∈ units, ∀ option n, parseU32Option option s unit = .ok n ↔
    IsNumber s n ∨ ∃ stem, s = stem ++ unit ∧ IsNumber stem n
  suffix : ∀ unit ∈ units, ¬ unit <:+ s → ∀ option n,
    parseU32Option option (s ++ unit) unit = .ok n ↔ parseU32Option option s unit = .ok n

/-- What the three functions have in common. -/
def readWhole (s : Text) : Option UInt32 :=
  match stoul s with
  | none => none
  | some (parsed, pos) =>
    if pos ≠ s.length ∨ 0xFFFFFFFF < parsed.toNat then none else some (UInt32.ofNat parsed.toNat)

variable {s stem unit option : Text} {n : UInt32} {neg : Bool} {v : ℕ}

/-! ### Reading a whole text -/

theorem exists_of_scanNumber {rest : Text} (h : scanNumber s = some (neg, v, rest)) :
    ∃ lead ds, s = lead ++ ds ++ rest ∧ Lead lead neg ∧ ds ≠ [] ∧
      (∀ c ∈ ds, isDigit c = true) ∧ v = decimalValue ds := by
  obtain ⟨lead, hsplit, hlead⟩ := exists_lead s
  rw [scanNumber] at h
  generalize readSign (s.dropWhile isSpace) = signed at *
  obtain ⟨sign, r⟩ := signed
  dsimp only at hsplit hlead h
  split at h
  · cases h
  · rename_i hne
    cases h
    refine ⟨lead, r.takeWhile isDigit, ?_, hlead, hne, ?_, rfl⟩
    · rw [List.append_assoc, List.takeWhile_append_dropWhile]
      exact hsplit
    · exact fun c hc => List.mem_takeWhile_imp hc

theorem scanNumber_lead {lead ds : Text} (hlead : Lead lead neg) (hne : ds ≠ [])
    (hds : ∀ c ∈ ds, isDigit c = true) :
    scanNumber (lead ++ ds) = some (neg, decimalValue ds, []) := by
  apply scanNumber_of_sign hne hds
  · rw [List.append_nil]
    exact readSign_lead hlead hne hds
  · exact nofun

theorem toNat_ullValue (h : v < 2 ^ 64) : (ullValue neg v).toNat = signedValue neg v := by
  rw [ullValue, if_neg (by omega), signedValue]
  cases neg with
  | true =>
    rw [if_pos rfl, if_pos rfl, UInt64.toNat_sub, UInt64.toNat_ofNat', Nat.mod_eq_of_lt h]
    simp
  | false =>
    rw [if_neg Bool.false_ne_true, if_neg Bool.false_ne_true, UInt64.toNat_ofNat',
      Nat.mod_eq_of_lt h]

/-- What is read whole: digits behind anything that the library skips. -/
theorem readWhole_iff : readWhole s = some n ↔ ∃ lead neg ds, s = lead ++ ds ∧ Lead lead neg ∧
    ds ≠ [] ∧ (∀ c ∈ ds, isDigit c = true) ∧ decimalValue ds < 2 ^ 64 ∧
    signedValue neg (decimalValue ds) = n.toNat := by
  constructor
  · intro h
    rw [readWhole, stoul, stoull] at h
    cases hscan : scanNumber s with
    | none => simp [hscan] at h
    | some r =>
      obtain ⟨neg, v, rest⟩ := r
      obtain ⟨lead, ds, hs, hlead, hne, hds, rfl⟩ := exists_of_scanNumber hscan
      rw [hscan] at h
      dsimp only at h
      by_cases hbig : 2 ^ 64 ≤ decimalValue ds
      · rw [if_pos hbig] at h
        cases h
      · rw [if_neg hbig] at h
        dsimp only at h
        split at h
        · cases h
        · rename_i hok
          rw [not_or, not_not, not_lt] at hok
          have hrest : rest = [] := by
            have hlen := congrArg List.length hs
            rw [List.length_append, List.length_append] at hlen
            have hpos : 0 < ds.length := List.length_pos_of_ne_nil hne
            apply List.eq_nil_of_length_eq_zero
            omega
          rw [hrest, List.append_nil] at hs
          refine ⟨lead, neg, ds, hs, hlead, hne, hds, by omega, ?_⟩
          rw [← toNat_ullValue (by omega), ← Option.some_inj.mp h, UInt32.toNat_ofNat',
            Nat.mod_eq_of_lt (by omega)]
  · rintro ⟨lead, neg, ds, rfl, hlead, hne, hds, hlt, hvalue⟩
    have hn := n.toNat_lt
    rw [readWhole, stoul, stoull, scanNumber_lead hlead hne hds]
    dsimp only
    rw [if_neg (by omega)]
    dsimp only
    rw [List.length_nil, Nat.sub_zero, toNat_ullValue hlt, hvalue, if_neg (by omega),
      UInt32.ofNat_toNat]

theorem isDigit_not_lead {lead : Text} (h : Lead lead neg) : ∀ c ∈ lead, isDigit c = false := by
  have hblank : ∀ c, isSpace c = true → isDigit c = false := by
    rintro c hc
    by_contra hd
    rw [isSpace_of_isDigit (by simpa using hd)] at hc
    cases hc
  cases h with
  | blanks hb => exact fun c hc => hblank c (hb c hc)
  | plus hb | minus hb =>
    rintro c hc
    rcases List.mem_append.mp hc with hc | hc
    · exact hblank c (hb c hc)
    · rw [List.mem_singleton.mp hc]
      rfl

/-- A number is read as such, and nothing else is unless it is misread. -/
theorem readWhole_iff_or : readWhole s = some n ↔ IsNumber s n ∨ Misread s n := by
  rw [readWhole_iff]
  constructor
  · rintro ⟨lead, neg, ds, rfl, hlead, hne, hds, hlt, hvalue⟩
    by_cases hnil : lead = []
    · subst hnil
      have hneg : neg = false := by
        generalize hl : ([] : Text) = l at hlead
        cases hlead with
        | blanks => rfl
        | plus => rfl
        | minus => simp at hl
      rw [hneg] at hvalue
      exact Or.inl ⟨hne, hds, hvalue⟩
    · exact Or.inr ⟨lead, neg, ds, rfl, hnil, hlead, hne, hds, hlt, hvalue⟩
  · rintro (⟨hne, hds, hvalue⟩ | ⟨lead, neg, ds, hs, _, h⟩)
    · have hn := n.toNat_lt
      exact ⟨[], false, s, rfl, .blanks nofun, hne, hds, by omega, hvalue⟩
    · exact ⟨lead, neg, ds, hs, h⟩

/-- What is misread has a character that is no digit. -/
theorem not_digits_of_misread (h : Misread s n) : ¬ ∀ c ∈ s, isDigit c = true := by
  obtain ⟨lead, neg, ds, rfl, hne, hlead, _⟩ := h
  rintro hall
  obtain ⟨c, t, rfl⟩ := List.exists_cons_of_ne_nil hne
  have hc := isDigit_not_lead hlead c List.mem_cons_self
  rw [hall c (List.mem_append_left ds List.mem_cons_self)] at hc
  cases hc

theorem not_number_of_misread {m : UInt32} (h : Misread s n) : ¬ IsNumber s m :=
  fun hnum => not_digits_of_misread h hnum.digits

/-! ### The three functions -/

theorem parseU32Arg_ok_iff : parseU32Arg option s = .ok n ↔ readWhole s = some n := by
  rw [parseU32Arg, readWhole]
  cases stoul s with
  | none => simp
  | some r =>
    dsimp only
    split <;> simp

theorem readWhole_nil : readWhole [] = none := rfl

theorem parseU32Input_iff : App.parseU32Input s = some n ↔ readWhole s = some n := by
  rw [App.parseU32Input]
  split
  · rename_i h
    rw [h, readWhole_nil]
  · rfl

/-- A unit stands at the end of a longer text. -/
def hasUnit (s unit : Text) : Bool :=
  unit != [] && unit.length < s.length && s.drop (s.length - unit.length) == unit

/-- What is left for the library to read. -/
def withoutUnit (s unit : Text) : Text :=
  if hasUnit s unit then s.take (s.length - unit.length) else s

theorem hasUnit_append (hunit : unit ≠ []) (hstem : stem ≠ []) :
    hasUnit (stem ++ unit) unit = true := by
  have hpos : 0 < stem.length := List.length_pos_of_ne_nil hstem
  rw [hasUnit, List.length_append, Nat.add_sub_cancel, List.drop_left, beq_self_eq_true,
    Bool.and_true, Bool.and_eq_true, bne_iff_ne, decide_eq_true_eq]
  exact ⟨hunit, by omega⟩

theorem withoutUnit_append (hunit : unit ≠ []) (hstem : stem ≠ []) :
    withoutUnit (stem ++ unit) unit = stem := by
  rw [withoutUnit, if_pos (hasUnit_append hunit hstem), List.length_append, Nat.add_sub_cancel,
    List.take_left]

theorem exists_of_hasUnit (h : hasUnit s unit = true) : ∃ stem, stem ≠ [] ∧ s = stem ++ unit := by
  rw [hasUnit, Bool.and_eq_true, Bool.and_eq_true, decide_eq_true_eq, beq_iff_eq] at h
  obtain ⟨⟨_, hlt⟩, hdrop⟩ := h
  refine ⟨s.take (s.length - unit.length), ?_, ?_⟩
  · rintro hnil
    have htake := congrArg List.length hnil
    rw [List.length_take, List.length_nil] at htake
    omega
  · conv_lhs => rw [← List.take_append_drop (s.length - unit.length) s, hdrop]

/-- The digits are checked where a unit could stand and does not. -/
theorem parseU32Option_iff : parseU32Option option s unit = .ok n ↔
    (unit ≠ [] → hasUnit s unit = false → ∀ c ∈ s, isDigit c = true) ∧
      readWhole (withoutUnit s unit) = some n := by
  change (if unit ≠ [] ∧ hasUnit s unit = false ∧
      ¬ (withoutUnit s unit ≠ [] ∧ (withoutUnit s unit).all isDigit = true) then _
    else match stoul (withoutUnit s unit) with
      | none => _
      | some (parsed, pos) =>
        if pos ≠ (withoutUnit s unit).length ∨ 0xFFFFFFFF < parsed.toNat then _ else _) = _ ↔ _
  have hcore : (match stoul (withoutUnit s unit) with
      | none => .error ("Invalid value for ".toList ++ option ++ ": ".toList ++ s)
      | some (parsed, pos) =>
        if pos ≠ (withoutUnit s unit).length ∨ 0xFFFFFFFF < parsed.toNat then
          .error ("Invalid value for ".toList ++ option ++ ": ".toList ++ s)
        else .ok (UInt32.ofNat parsed.toNat)) = (.ok n : Except Text UInt32) ↔
      readWhole (withoutUnit s unit) = some n := by
    rw [readWhole]
    cases stoul (withoutUnit s unit) with
    | none => exact ⟨nofun, nofun⟩
    | some r =>
      dsimp only
      split
      · exact ⟨nofun, nofun⟩
      · rw [Except.ok.injEq, Option.some_inj]
  split
  · rename_i hbad
    obtain ⟨hunit, hhas, hdigits⟩ := hbad
    have hwithout : withoutUnit s unit = s := by
      rw [withoutUnit, hhas, if_neg Bool.false_ne_true]
    rw [hwithout] at hdigits ⊢
    constructor
    · exact nofun
    · rintro ⟨hall, hread⟩
      refine absurd ⟨?_, List.all_eq_true.mpr (hall hunit hhas)⟩ hdigits
      rintro rfl
      cases hread
  · rename_i hgood
    rw [hcore]
    constructor
    · rintro hread
      refine ⟨fun hunit hhas => ?_, hread⟩
      have hwithout : withoutUnit s unit = s := by
        rw [withoutUnit, hhas, if_neg Bool.false_ne_true]
      rw [hwithout] at hgood
      by_contra hall
      refine hgood ⟨hunit, hhas, fun h => hall (List.all_eq_true.mp h.2)⟩
    · exact And.right

/-- Without a unit. -/
theorem parseU32Option_nil : parseU32Option option s [] = .ok n ↔ readWhole s = some n := by
  rw [parseU32Option_iff]
  exact ⟨And.right, fun h => ⟨fun hnil => absurd rfl hnil, h⟩⟩

/-- With a unit that is there only what precedes it is read. -/
theorem parseU32Option_unit (hunit : unit ≠ []) (hstem : stem ≠ []) :
    parseU32Option option (stem ++ unit) unit = .ok n ↔ readWhole stem = some n := by
  rw [parseU32Option_iff, withoutUnit_append hunit hstem, hasUnit_append hunit hstem]
  exact ⟨And.right, fun h => ⟨fun _ => nofun, h⟩⟩

/-- With a unit that is not there the digits are checked. -/
theorem parseU32Option_no_unit (hunit : unit ≠ []) (hs : ∀ stem, stem ≠ [] → s ≠ stem ++ unit) :
    parseU32Option option s unit = .ok n ↔ IsNumber s n := by
  have hhas : hasUnit s unit = false := by
    rw [← Bool.not_eq_true]
    rintro h
    obtain ⟨stem, hstem, heq⟩ := exists_of_hasUnit h
    exact hs stem hstem heq
  rw [parseU32Option_iff, withoutUnit, hhas, if_neg Bool.false_ne_true, readWhole_iff_or]
  constructor
  · rintro ⟨hall, hnum | hmis⟩
    · exact hnum
    · exact absurd (hall hunit rfl) (not_digits_of_misread hmis)
  · exact fun h => ⟨fun _ _ => h.digits, Or.inl h⟩

/-! ### The grammar -/

theorem unit_ne_nil (h : unit ∈ units) : unit ≠ [] := by
  rintro rfl
  revert h
  decide

/-- A number does not end in a unit. -/
theorem not_number_of_unit (h : unit ∈ units) : ¬ IsNumber (stem ++ unit) n := by
  rintro ⟨_, hds, _⟩
  have hs : 's' ∈ unit := by
    rcases List.mem_cons.mp h with rfl | h
    · decide
    · rw [List.mem_singleton.mp h]
      decide
  have hdigit := hds 's' (List.mem_append_right stem hs)
  revert hdigit
  decide

theorem not_misread_nil : ¬ Misread [] n := by
  rintro ⟨lead, neg, ds, hs, hne, _⟩
  exact hne (List.append_eq_nil_iff.mp hs.symm).1

/-- What an option with a unit accepts. -/
theorem parseU32Option_ok_iff (hunit : unit ∈ units) :
    parseU32Option option s unit = .ok n ↔
      IsNumber s n ∨ ∃ stem, s = stem ++ unit ∧ (IsNumber stem n ∨ Misread stem n) := by
  by_cases h : ∃ stem, stem ≠ [] ∧ s = stem ++ unit
  · obtain ⟨stem, hstem, rfl⟩ := h
    rw [parseU32Option_unit (unit_ne_nil hunit) hstem, readWhole_iff_or]
    constructor
    · exact fun h => Or.inr ⟨stem, rfl, h⟩
    · rintro (h | ⟨stem', hs, h⟩)
      · exact absurd h (not_number_of_unit hunit)
      · rwa [List.append_cancel_right hs]
  · rw [parseU32Option_no_unit (unit_ne_nil hunit) fun stem hstem hs => h ⟨stem, hstem, hs⟩]
    constructor
    · exact Or.inl
    · rintro (hnum | ⟨stem, rfl, hread⟩)
      · exact hnum
      · have hnil : stem = [] := by
          by_contra hstem
          exact h ⟨stem, hstem, rfl⟩
        subst hnil
        rcases hread with hread | hread
        · exact absurd rfl hread.ne_nil
        · exact absurd hread not_misread_nil

/-- The grammar holds at exactly the texts that are not misread, with a unit or without. -/
theorem numericGrammar_iff (s : Text) : NumericGrammar s ↔
    (∀ n, ¬ Misread s n) ∧ ∀ unit ∈ units, ∀ stem, s = stem ++ unit → ∀ n, ¬ Misread stem n := by
  constructor
  · rintro h
    constructor
    · rintro n hmis
      have hread : parseU32Arg [] s = .ok n :=
        parseU32Arg_ok_iff.mpr (readWhole_iff_or.mpr (Or.inr hmis))
      exact not_number_of_misread hmis ((h.arg [] n).mp hread)
    · rintro unit hunit stem rfl n hmis
      have hread : parseU32Option [] (stem ++ unit) unit = .ok n :=
        (parseU32Option_ok_iff hunit).mpr (Or.inr ⟨stem, rfl, Or.inr hmis⟩)
      rcases (h.unit unit hunit [] n).mp hread with hnum | ⟨stem', hs, hnum⟩
      · exact not_number_of_unit hunit hnum
      · rw [← List.append_cancel_right hs] at hnum
        exact not_number_of_misread hmis hnum
  · rintro ⟨hs, hstem⟩
    have hwhole : ∀ n, readWhole s = some n ↔ IsNumber s n := by
      intro n
      rw [readWhole_iff_or, or_iff_left (hs n)]
    constructor
    · exact fun option n => parseU32Arg_ok_iff.trans (hwhole n)
    · exact fun n => parseU32Input_iff.trans (hwhole n)
    · exact fun option n => parseU32Option_nil.trans (hwhole n)
    · rintro unit hunit option n
      rw [parseU32Option_ok_iff hunit]
      apply or_congr Iff.rfl
      constructor
      · rintro ⟨stem, rfl, hread⟩
        exact ⟨stem, rfl, hread.resolve_right (hstem unit hunit stem rfl n)⟩
      · rintro ⟨stem, rfl, hnum⟩
        exact ⟨stem, rfl, Or.inl hnum⟩
    · rintro unit hunit hend option n
      rw [parseU32Option_ok_iff hunit, parseU32Option_ok_iff hunit]
      constructor
      · rintro (hnum | ⟨stem, heq, hread⟩)
        · exact absurd hnum (not_number_of_unit hunit)
        · rw [← List.append_cancel_right heq] at hread
          exact Or.inl (hread.resolve_right (hs n))
      · rintro (hnum | ⟨stem, rfl, _⟩)
        · exact Or.inr ⟨s, rfl, Or.inl hnum⟩
        · exact absurd (List.suffix_append stem unit) hend

/-- A number below -2^64 + 2^32 is read as what is left of it modulo 2^64. -/
theorem not_numericGrammar_minus : ¬ NumericGrammar "-18446744073709551615".toList := by
  rintro h
  have hread : parseU32Arg "--sample-n".toList "-18446744073709551615".toList = .ok 1 := by
    decide +kernel
  have hdigit := ((h.arg _ _).mp hread).digits '-' (by decide)
  revert hdigit
  decide

end KWatch
