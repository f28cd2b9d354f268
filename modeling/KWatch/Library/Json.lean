import KWatch.Library.Text

/-! # JSON objects on one line

The part of the JSON grammar without blanks, escapes and nesting: an object whose members are
strings and natural numbers. What the grammar derives is read in one way only.
-/

namespace Json

/-- A character that a JSON string holds as it is: no quote, no backslash, no control. -/
def isPlain (c : Char) : Bool := c != '"' && c != '\\' && 32 ≤ c.toNat

inductive Scalar
  | str (s : List Char)
  | nat (n : ℕ)
  deriving DecidableEq, Repr

/-- The texts of a scalar. -/
inductive Scalar.Writes : Scalar → List Char → Prop where

  | str {s : List Char} : (∀ c ∈ s, isPlain c = true) → Writes (.str s) ('"' :: s ++ ['"'])

  | nat {ds : List Char} : ds ≠ [] → (∀ c ∈ ds, c.isDigit = true) →
      (ds.head? = some '0' → ds = ['0']) → Writes (.nat (Nat.ofDigitChars 10 ds 0)) ds

/-- The texts of a nonempty list of members. -/
inductive Members : List (List Char × Scalar) → List Char → Prop where

  | one {key text : List Char} {v : Scalar} : (∀ c ∈ key, isPlain c = true) → v.Writes text →
      Members [(key, v)] ('"' :: key ++ '"' :: ':' :: text)

  | cons {key text body : List Char} {v : Scalar} {ms : List (List Char × Scalar)} :
      (∀ c ∈ key, isPlain c = true) → v.Writes text → Members ms body →
      Members ((key, v) :: ms) ('"' :: key ++ '"' :: ':' :: text ++ ',' :: body)

/-- A text that is a well-formed object with these members. -/
def IsObject (ms : List (List Char × Scalar)) (text : List Char) : Prop :=
  ∃ body, (ms = [] ∧ body = [] ∨ Members ms body) ∧ text = '{' :: body ++ ['}']

/-! ### Writing -/

def Scalar.write : Scalar → List Char
  | .str s => '"' :: s ++ ['"']
  | .nat n => Nat.toDigits 10 n

def writeMember (m : List Char × Scalar) : List Char :=
  '"' :: m.1 ++ '"' :: ':' :: m.2.write

/-- The member list, with commas between the members. -/
def writeMembers (ms : List (List Char × Scalar)) : List Char :=
  [','].intercalate (ms.map writeMember)

def writeObject (ms : List (List Char × Scalar)) : List Char := '{' :: writeMembers ms ++ ['}']

def Scalar.Plain : Scalar → Prop
  | .str s => ∀ c ∈ s, isPlain c = true
  | .nat _ => True

/-- Members that need no escape. -/
def PlainMembers (ms : List (List Char × Scalar)) : Prop :=
  ∀ m ∈ ms, (∀ c ∈ m.1, isPlain c = true) ∧ m.2.Plain

theorem Scalar.Plain.writes {v : Scalar} (h : v.Plain) : v.Writes v.write := by
  cases v with
  | str s => exact .str h
  | nat n =>
    have hw : Writes (.nat (Nat.ofDigitChars 10 (Nat.toDigits 10 n) 0)) (Nat.toDigits 10 n) := by
      apply Writes.nat Nat.toDigits_ne_nil (Scan.isDigit_toDigits n)
      intro h0
      rw [Scan.toDigits_no_leading_zero h0, Nat.toDigits_zero]
    rwa [Nat.ofDigitChars_ten_toDigits] at hw

theorem members_writeMembers {ms : List (List Char × Scalar)} (hne : ms ≠ [])
    (h : PlainMembers ms) : Members ms (writeMembers ms) := by
  induction ms with
  | nil => exact absurd rfl hne
  | cons m ms ih =>
    obtain ⟨hkey, hval⟩ := h m (by simp)
    cases ms with
    | nil => simpa [writeMembers, writeMember] using Members.one hkey hval.writes
    | cons m' ms =>
      have hrest := ih (by simp) fun x hx => h x (by simp [hx])
      simpa [writeMembers, writeMember] using Members.cons hkey hval.writes hrest

theorem isObject_writeObject {ms : List (List Char × Scalar)} (h : PlainMembers ms) :
    IsObject ms (writeObject ms) := by
  refine ⟨writeMembers ms, ?_, rfl⟩
  rcases eq_or_ne ms [] with rfl | hne
  · exact .inl ⟨rfl, rfl⟩
  · exact .inr (members_writeMembers hne h)

/-! ### Reading -/

def readString : List Char → Option (List Char × List Char)
  | '"' :: t =>
    match t.dropWhile isPlain with
    | '"' :: rest => some (t.takeWhile isPlain, rest)
    | _ => none
  | _ => none

def readNat (t : List Char) : Option (ℕ × List Char) :=
  let ds := t.takeWhile Char.isDigit
  if ds = [] ∨ ds.head? = some '0' ∧ ds ≠ ['0'] then none
  else some (Nat.ofDigitChars 10 ds 0, t.dropWhile Char.isDigit)

def readScalar (t : List Char) : Option (Scalar × List Char) :=
  if t.head? = some '"' then (readString t).map fun r => (.str r.1, r.2)
  else (readNat t).map fun r => (.nat r.1, r.2)

/-- Read members until one is not followed by a comma. -/
def readMembers : ℕ → List Char → Option (List (List Char × Scalar) × List Char)
  | 0, _ => none
  | n + 1, t => do
    let (key, t) ← readString t
    let (v, t) ← if t.head? = some ':' then readScalar t.tail else none
    if t.head? = some ',' then
      let (ms, t) ← readMembers n t.tail
      some ((key, v) :: ms, t)
    else some ([(key, v)], t)

def readObject (t : List Char) : Option (List (List Char × Scalar)) :=
  if t = ['{', '}'] then some []
  else if t.head? = some '{' then
    match readMembers t.length t.tail with
    | some (ms, ['}']) => some ms
    | _ => none
  else none

theorem readString_append {s : List Char} (h : ∀ c ∈ s, isPlain c = true) (rest : List Char) :
    readString ('"' :: s ++ '"' :: rest) = some (s, rest) := by
  have hquote : ∀ c ∈ ('"' :: rest).head?, isPlain c = false := by simp [isPlain]
  simp [readString, Scan.takeWhile_append h hquote, Scan.dropWhile_append h hquote]

theorem readNat_append {ds rest : List Char} (hne : ds ≠ []) (hds : ∀ c ∈ ds, c.isDigit = true)
    (hzero : ds.head? = some '0' → ds = ['0']) (hrest : ∀ c ∈ rest.head?, c.isDigit = false) :
    readNat (ds ++ rest) = some (Nat.ofDigitChars 10 ds 0, rest) := by
  have hok : ¬ (ds = [] ∨ ds.head? = some '0' ∧ ds ≠ ['0']) := by
    rintro (h | ⟨h, h'⟩)
    · exact hne h
    · exact h' (hzero h)
  simp only [readNat, Scan.takeWhile_append hds hrest, Scan.dropWhile_append hds hrest, if_neg hok]

theorem Scalar.Writes.readScalar {v : Scalar} {text : List Char} (h : v.Writes text)
    {rest : List Char} (hrest : ∀ c ∈ rest.head?, c.isDigit = false) :
    readScalar (text ++ rest) = some (v, rest) := by
  cases h with
  | @str s hs =>
    have hread := readString_append hs rest
    simp only [List.cons_append, List.append_assoc, List.nil_append] at hread ⊢
    simp [Json.readScalar, hread]
  | nat hne hds hzero =>
    have hread := readNat_append hne hds hzero hrest
    obtain ⟨c, ds, rfl⟩ := List.exists_cons_of_ne_nil hne
    have hc : c ≠ '"' := by
      rintro rfl
      exact absurd (hds '"' (by simp)) (by decide)
    rw [List.cons_append] at hread ⊢
    simp [Json.readScalar, hread, hc]

theorem Members.readMembers {ms : List (List Char × Scalar)} {body : List Char}
    (h : Members ms body) {rest : List Char} (hrest : ∀ c ∈ rest.head?, c = '}') :
    ∀ n, ms.length ≤ n → Json.readMembers n (body ++ rest) = some (ms, rest) := by
  induction h with
  | @one key text v hkey hval =>
    intro n hn
    rw [List.length_singleton] at hn
    obtain ⟨n, rfl⟩ := Nat.exists_eq_succ_of_ne_zero (Nat.one_le_iff_ne_zero.mp hn)
    have hdigit : ∀ c ∈ rest.head?, c.isDigit = false := fun c hc => by rw [hrest c hc]; decide
    have hcomma : rest.head? ≠ some ',' := fun hc => absurd (hrest ',' hc) (by decide)
    have hstr := readString_append hkey (':' :: (text ++ rest))
    simp only [List.cons_append, List.append_assoc] at hstr ⊢
    simp [Json.readMembers, hstr, hval.readScalar hdigit, hcomma]
  | @cons key text body v ms hkey hval hms ih =>
    intro n hn
    rw [List.length_cons] at hn
    obtain ⟨n, rfl⟩ := Nat.exists_eq_succ_of_ne_zero (show n ≠ 0 by omega)
    have hstr := readString_append hkey (':' :: (text ++ ',' :: (body ++ rest)))
    have hnext : ∀ c, (',' :: (body ++ rest)).head? = some c → c.isDigit = false := by simp
    have hread := hval.readScalar hnext
    simp only [List.cons_append, List.append_assoc] at hstr ⊢
    simp [Json.readMembers, hstr, hread, ih n (by omega)]

theorem Members.length_le {ms : List (List Char × Scalar)} {body : List Char}
    (h : Members ms body) : ms.length ≤ body.length := by
  induction h with
  | one => simp
  | cons _ _ _ ih => simp; omega

/-- What the grammar derives is read back, so a text has one list of members at most. -/
theorem IsObject.readObject {ms : List (List Char × Scalar)} {text : List Char}
    (h : IsObject ms text) : readObject text = some ms := by
  obtain ⟨body, hbody, rfl⟩ := h
  rcases hbody with ⟨rfl, rfl⟩ | hms
  · rfl
  · have hne : '{' :: body ++ ['}'] ≠ ['{', '}'] := by
      cases hms <;> simp
    have hlen := hms.length_le
    have hend : ∀ c, ['}'].head? = some c → c = '}' := by simp
    have hread := hms.readMembers hend (body.length + 1 + 1) (by omega)
    rw [List.cons_append] at hne ⊢
    simp [Json.readObject, hne, hread]

/-! ### One line -/

theorem isPlain_le {c : Char} (h : isPlain c = true) : 32 ≤ c.toNat := by
  simp [isPlain] at h
  exact h.2

theorem isDigit_le {c : Char} (h : c.isDigit = true) : 32 ≤ c.toNat := by
  have h48 : 48 ≤ c.toNat := (Char.isDigit_iff_toNat.mp h).1
  omega

theorem isPlain_of_isDigit {c : Char} (h : c.isDigit = true) : isPlain c = true := by
  have hctl := isDigit_le h
  have hquote : c ≠ '"' := by
    rintro rfl
    revert h
    decide
  have hslash : c ≠ '\\' := by
    rintro rfl
    revert h
    decide
  simp [isPlain, hquote, hslash, hctl]

theorem Scalar.Writes.no_control {v : Scalar} {text : List Char} (h : v.Writes text) :
    ∀ c ∈ text, 32 ≤ c.toNat := by
  cases h with
  | @str s hs =>
    have hs' : ∀ c ∈ s, 32 ≤ c.toNat := fun c hc => isPlain_le (hs c hc)
    simpa [or_imp, forall_and] using hs'
  | nat _ hds => exact fun c hc => isDigit_le (hds c hc)

theorem Members.no_control {ms : List (List Char × Scalar)} {body : List Char}
    (h : Members ms body) : ∀ c ∈ body, 32 ≤ c.toNat := by
  induction h with
  | @one key _ _ hkey hval =>
    have hkey' : ∀ c ∈ key, 32 ≤ c.toNat := fun c hc => isPlain_le (hkey c hc)
    simpa [or_imp, forall_and] using ⟨hkey', hval.no_control⟩
  | @cons key _ _ _ _ hkey hval _ ih =>
    have hkey' : ∀ c ∈ key, 32 ≤ c.toNat := fun c hc => isPlain_le (hkey c hc)
    simpa [or_imp, forall_and] using ⟨hkey', hval.no_control, ih⟩

/-- An object has no newline and no other control character. -/
theorem IsObject.no_control {ms : List (List Char × Scalar)} {text : List Char}
    (h : IsObject ms text) : ∀ c ∈ text, 32 ≤ c.toNat := by
  obtain ⟨body, hbody, rfl⟩ := h
  have hctl : ∀ c ∈ body, 32 ≤ c.toNat := by
    rcases hbody with ⟨rfl, rfl⟩ | hms
    · simp
    · exact hms.no_control
  simpa [or_imp, forall_and] using hctl

end Json
