import KWatch.Pin.Effects

/-! # The identity of an owner survives

The line of the owner file reads back as what was written, and the line of the process table gives
the state and the start time whatever the name of the process is: the name ends at the last
`") "`, since nothing behind it contains a parenthesis.
-/

namespace KWatch

open Ipv4

/-- A decimal field of the process table. -/
def IsDecimal (f : Text) : Prop :=
  ∃ ds, ds ≠ [] ∧ (∀ c ∈ ds, isDigit c = true) ∧ (f = ds ∨ f = '-' :: ds)

/-- An entry of the process table: any name on one line, a state letter, and decimal fields from
the fourth one on, of which the 22nd is an unsigned 64-bit value. -/
structure ProcEntry where
  name : Text
  state : Char
  fields : List Text
  startTime : Text
  name_on_line : '\n' ∉ name
  state_letter : state.isAlpha = true
  decimal : ∀ f ∈ fields, IsDecimal f
  field_22 : fields[18]? = some startTime
  startTime_digits : ∀ c ∈ startTime, isDigit c = true
  startTime_lt : decimalValue startTime < 2 ^ 64

/-- The line of `/proc/<pid>/stat`: the pid, the name in parentheses, the state and the fields. -/
def ProcEntry.line (e : ProcEntry) (pid : ℤ) : Text :=
  printInt pid ++ " (".toList ++ e.name ++ ") ".toList ++
    e.state :: e.fields.flatMap (' ' :: ·) ++ ['\n']

/-- The start time of an entry. -/
def ProcEntry.ticks (e : ProcEntry) : UInt64 := UInt64.ofNat (decimalValue e.startTime)

variable {s t p : Text} {c state : Char} {f ds : Text} {fields : List Text} {pid : ℤ}

/-! ### Characters -/

theorem eq_of_isDecimal (hf : IsDecimal f) (hc : c ∈ f) : isDigit c = true ∨ c = '-' := by
  obtain ⟨ds, _, hds, rfl | rfl⟩ := hf
  · exact Or.inl (hds c hc)
  · rcases List.mem_cons.mp hc with rfl | hc
    · exact Or.inr rfl
    · exact Or.inl (hds c hc)

theorem isDecimal_ne_nil (hf : IsDecimal f) : f ≠ [] := by
  obtain ⟨ds, hne, _, rfl | rfl⟩ := hf
  · exact hne
  · exact List.cons_ne_nil _ _

/-- The characters behind the name are neither parentheses nor blanks. -/
structure Plain (c : Char) : Prop where
  not_close : c ≠ ')'
  not_space : isSpace c = false
  not_newline : c ≠ '\n'

theorem plain_of_isDigit (h : isDigit c = true) : Plain c := by
  constructor
  · rintro rfl
    cases h
  · exact isSpace_of_isDigit h
  · rintro rfl
    cases h

theorem plain_of_isDecimal (hf : IsDecimal f) (hc : c ∈ f) : Plain c := by
  rcases eq_of_isDecimal hf hc with h | rfl
  · exact plain_of_isDigit h
  · exact ⟨by decide, by decide, by decide⟩

theorem plain_of_isAlpha (h : c.isAlpha = true) : Plain c := by
  constructor
  · rintro rfl
    revert h
    decide
  · by_contra hs
    simp only [isSpace, Bool.not_eq_false, Bool.or_eq_true, beq_iff_eq] at hs
    rcases hs with ((((rfl | rfl) | rfl) | rfl) | rfl) | rfl <;> revert h <;> decide
  · rintro rfl
    revert h
    decide

theorem isDigit_of_mem_printInt {i : ℤ} (h : c ∈ printInt i) : isDigit c = true ∨ c = '-' := by
  rw [printInt] at h
  split at h
  · rcases List.mem_cons.mp h with rfl | h
    · exact Or.inr rfl
    · exact Or.inl (isDigit_of_mem_toDigits h)
  · exact Or.inl (isDigit_of_mem_toDigits h)

/-! ### The end of the name -/

theorem afterCloseParen_eq_none (h : ')' ∉ t) : afterCloseParen t = none := by
  induction t with
  | nil => rfl
  | cons c t ih =>
    rw [List.mem_cons, not_or] at h
    rw [afterCloseParen, ih h.2]
    dsimp only
    rw [if_neg]
    rintro ⟨rfl, _⟩
    exact h.1 rfl

theorem afterCloseParen_append {rest : Text} (h : afterCloseParen t = some rest) (p : Text) :
    afterCloseParen (p ++ t) = some rest := by
  induction p with
  | nil => exact h
  | cons c p ih => rw [List.cons_append, afterCloseParen, ih]

/-- The search from the right finds the parenthesis that ends the name. -/
theorem afterCloseParen_name {rest : Text} (h : ')' ∉ rest) (p : Text) :
    afterCloseParen (p ++ ')' :: ' ' :: rest) = some rest := by
  apply afterCloseParen_append
  have hnone : afterCloseParen (' ' :: rest) = none := by
    apply afterCloseParen_eq_none
    simpa using h
  rw [afterCloseParen, hnone]
  rfl

/-! ### Fields -/

theorem tokens_append (hc : isSpace c = true) (s t : Text) :
    tokens (s ++ c :: t) = tokens s ++ tokens t := by
  rw [tokens, List.splitOnP_append_cons _ _ hc, List.filter_append]
  rfl

theorem tokens_word (hne : t ≠ []) (h : ∀ c ∈ t, isSpace c = false) : tokens t = [t] := by
  rw [tokens, List.splitOnP_eq_singleton h]
  simp [hne]

theorem tokens_fields (hne : t ≠ []) (ht : ∀ c ∈ t, isSpace c = false)
    (hf : ∀ f ∈ fields, IsDecimal f) :
    tokens (t ++ fields.flatMap (' ' :: ·)) = t :: fields := by
  induction fields generalizing t with
  | nil => rw [List.flatMap_nil, List.append_nil, tokens_word hne ht]
  | cons f fields ih =>
    obtain ⟨hdec, hfields⟩ := List.forall_mem_cons.mp hf
    have hplain : ∀ c ∈ f, isSpace c = false := fun c hc => (plain_of_isDecimal hdec hc).not_space
    rw [List.flatMap_cons, List.cons_append, tokens_append (by decide),
      tokens_word hne ht, ih (isDecimal_ne_nil hdec) hplain hfields, List.singleton_append]

/-- The loop passes over the fields between the state and the start time. -/
theorem scanFields_skip {field : ℕ} (before rest : List Text) (hstart : 3 < field)
    (hend : field + before.length ≤ 22) :
    scanFields field state (before ++ rest) = scanFields (field + before.length) state rest := by
  induction before generalizing field with
  | nil => rfl
  | cons f before ih =>
    rw [List.length_cons] at hend
    rw [List.cons_append, scanFields, if_neg (by omega), if_neg (by omega),
      ih (by omega) (by omega), List.length_cons]
    congr 1
    omega

/-- Field 22 is the start time. -/
theorem scanFields_startTime (h22 : fields[18]? = some ds) (hne : ds ≠ [])
    (hds : ∀ c ∈ ds, isDigit c = true) (hlt : decimalValue ds < 2 ^ 64) :
    scanFields 3 '\x00' ([state] :: fields) = .ok ⟨state, UInt64.ofNat (decimalValue ds)⟩ := by
  obtain ⟨hlen, hget⟩ := List.getElem?_eq_some_iff.mp h22
  have hsplit : fields = fields.take 18 ++ ds :: fields.drop 19 := by
    rw [← hget, ← List.drop_eq_getElem_cons hlen, List.take_append_drop]
  have hbefore : (fields.take 18).length = 18 := by
    rw [List.length_take]
    omega
  rw [scanFields, if_pos rfl, hsplit, scanFields_skip _ _ (by decide) (by rw [hbefore]), hbefore,
    scanFields, if_neg (by decide), if_pos rfl, stoull_digits hne hds, if_neg (by omega)]
  simp

theorem ProcEntry.startTime_ne_nil (e : ProcEntry) : e.startTime ≠ [] :=
  isDecimal_ne_nil (e.decimal _ (List.mem_of_getElem? e.field_22))

/-- What stands behind the name. -/
theorem ProcEntry.not_close (e : ProcEntry) :
    ∀ c ∈ e.state :: e.fields.flatMap (' ' :: ·), c ≠ ')' ∧ c ≠ '\n' := by
  rintro c hc
  rcases List.mem_cons.mp hc with rfl | hc
  · have hplain := plain_of_isAlpha e.state_letter
    exact ⟨hplain.not_close, hplain.not_newline⟩
  obtain ⟨f, hf, hc⟩ := List.mem_flatMap.mp hc
  rcases List.mem_cons.mp hc with rfl | hc
  · decide
  · have hplain := plain_of_isDecimal (e.decimal f hf) hc
    exact ⟨hplain.not_close, hplain.not_newline⟩

/-- `getline` reads the whole line. -/
theorem ProcEntry.getline (e : ProcEntry) (pid : ℤ) :
    (e.line pid).takeWhile (· != '\n') = (printInt pid ++ " (".toList ++ e.name) ++
      ')' :: ' ' :: (e.state :: e.fields.flatMap (' ' :: ·)) := by
  have hline : e.line pid = ((printInt pid ++ " (".toList ++ e.name) ++
      ')' :: ' ' :: (e.state :: e.fields.flatMap (' ' :: ·))) ++ ['\n'] := by
    simp [ProcEntry.line]
  rw [hline]
  apply Scan.takeWhile_append
  · rintro c hc
    rw [bne_iff_ne]
    rintro rfl
    rw [List.mem_append, List.mem_append, List.mem_append] at hc
    rcases hc with ((hc | hc) | hc) | hc
    · rcases isDigit_of_mem_printInt hc with h | h <;> revert h <;> decide
    · revert hc
      decide
    · exact e.name_on_line hc
    · rcases List.mem_cons.mp hc with hc | hc
      · revert hc
        decide
      rcases List.mem_cons.mp hc with hc | hc
      · revert hc
        decide
      · exact (e.not_close _ hc).2 rfl
  · rintro c hc
    cases hc
    rfl

/-- A line of the process table gives its state and its start time. -/
theorem parseProcStat_line (e : ProcEntry) (pid : ℤ) :
    parseProcStat (e.line pid) = .ok ⟨e.state, e.ticks⟩ := by
  have htokens : tokens (e.state :: e.fields.flatMap (' ' :: ·)) = [e.state] :: e.fields := by
    apply tokens_fields (t := [e.state]) (List.cons_ne_nil _ _) _ e.decimal
    rintro c hc
    rw [List.mem_singleton] at hc
    rw [hc]
    exact (plain_of_isAlpha e.state_letter).not_space
  rw [parseProcStat, e.getline, afterCloseParen_name fun h => (e.not_close _ h).1 rfl]
  dsimp only
  rw [htokens]
  exact scanFields_startTime e.field_22 e.startTime_ne_nil e.startTime_digits e.startTime_lt

/-! ### The owner file -/

theorem run_currentOwnerState_of_stat {stat : ProcStat} {sys₀ : Files}
    (h : statOf sys₀.procStat pid = .ok stat) :
    (currentOwnerState pid).run sys sys₀ = (.ok ⟨pid, stat.startTimeTicks⟩, sys₀) := by
  simp [currentOwnerState, run_readProcStat, h]

theorem run_writeOwnerPidFile_of_stat {stat : ProcStat} {sys₀ : Files}
    (h : statOf sys₀.procStat pid = .ok stat) (ho : sys₀.fopenOwnerPid.1 = .ok ()) :
    (writeOwnerPidFile pid).run sys sys₀ =
      (.ok (), sys₀.fopenOwnerPid.2.fcloseOwnerPid (ownerLine ⟨pid, stat.startTimeTicks⟩)) := by
  simp [writeOwnerPidFile, writeOwnerLine, run_currentOwnerState_of_stat h, call, sys, ho]

/-- A write that succeeds leaves the line of the owner in the file. -/
theorem ownerPid_of_write {stat : ProcStat} {sys₀ : Files}
    (h : statOf sys₀.procStat pid = .ok stat)
    (hok : ((writeOwnerPidFile pid).run sys sys₀).1 = .ok ()) :
    ((writeOwnerPidFile pid).run sys sys₀).2.ownerPid =
      .text (ownerLine ⟨pid, stat.startTimeTicks⟩) := by
  cases ho : sys₀.fopenOwnerPid.1 with
  | error e =>
    simp [writeOwnerPidFile, writeOwnerLine, run_currentOwnerState_of_stat h, call, sys, ho] at hok
  | ok u =>
    rw [run_writeOwnerPidFile_of_stat h ho]
    exact Files.ownerPid_fcloseOwnerPid ho _

/-- The owner file reads back as the identity that was written. -/
theorem readOwnerState_of_write {stat : ProcStat} {sys₀ : Files} (hpos : 0 < pid)
    (hle : pid ≤ 2147483647) (hticks : stat.startTimeTicks ≠ 0)
    (h : statOf sys₀.procStat pid = .ok stat)
    (hok : ((writeOwnerPidFile pid).run sys sys₀).1 = .ok ()) :
    (readOwnerState.run sys ((writeOwnerPidFile pid).run sys sys₀).2).1 =
      .ok ⟨pid, stat.startTimeTicks⟩ := by
  rw [run_readOwnerState, Files.readOwnerPid, ownerPid_of_write h hok]
  dsimp only
  rw [parseOwnerState_ownerLine, if_pos ⟨hpos, hle, hticks⟩]

/-- The identity of a process survives in its owner file, and the process table gives its state
and start time whatever its name is: it is alive if it is no zombie and started when the file says.
-/
theorem ownerIdentity_survives (hpos : 0 < pid) (hle : pid ≤ 2147483647) (sys₀ : Files) :
    (∀ stat, stat.startTimeTicks ≠ 0 → statOf sys₀.procStat pid = .ok stat →
        ((writeOwnerPidFile pid).run sys sys₀).1 = .ok () →
        (readOwnerState.run sys ((writeOwnerPidFile pid).run sys sys₀).2).1 =
          .ok ⟨pid, stat.startTimeTicks⟩) ∧
      ∀ (e : ProcEntry) (recorded : UInt64), sys₀.procStat pid = some (e.line pid) →
        ((readProcStat pid).run sys sys₀).1 = .ok ⟨e.state, e.ticks⟩ ∧
          (((isOwnerAlive ⟨pid, recorded⟩).run sys sys₀).1 = true ↔
            e.state ≠ 'Z' ∧ e.ticks = recorded) := by
  constructor
  · exact fun stat hticks h hok => readOwnerState_of_write hpos hle hticks h hok
  · rintro e recorded hline
    have hstat : statOf sys₀.procStat pid = .ok ⟨e.state, e.ticks⟩ := by
      rw [statOf, if_neg (by omega), hline]
      exact parseProcStat_line e pid
    rw [run_readProcStat, run_isOwnerAlive, ownerAlive, hstat]
    refine ⟨rfl, ?_⟩
    simp

/-- A process whose name imitates the rest of the line. -/
def forgedEntry : ProcEntry where
  name := "x) Z 1 (y".toList
  state := 'S'
  fields := List.replicate 18 "0".toList ++ ["42".toList]
  startTime := "42".toList
  name_on_line := by decide
  state_letter := by decide
  decimal := by
    rintro f hf
    rcases List.mem_append.mp hf with hf | hf
    · rw [List.eq_of_mem_replicate hf]
      exact ⟨['0'], nofun, by simp [isDigit], Or.inl rfl⟩
    · rw [List.mem_singleton.mp hf]
      exact ⟨['4', '2'], nofun, by simp [isDigit], Or.inl rfl⟩
  field_22 := rfl
  startTime_digits := by simp [isDigit]
  startTime_lt := by decide

/-- A system in which that process runs. -/
def forgedFiles : Files where
  pinDir := .absent
  runDir := .dir (.dir ⟨.absent, []⟩)
  procStat pid := if pid = 7 then some (forgedEntry.line 7) else none

theorem forgedFiles_line : forgedFiles.procStat 7 = some (forgedEntry.line 7) := by
  simp [forgedFiles]

theorem forgedFiles_stat : statOf forgedFiles.procStat 7 = .ok ⟨'S', 42⟩ := by
  rw [statOf, if_neg (by norm_num), forgedFiles_line]
  exact parseProcStat_line forgedEntry 7

theorem ownerIdentity_survives_forged :
    (readOwnerState.run sys ((writeOwnerPidFile 7).run sys forgedFiles).2).1 = .ok ⟨7, 42⟩ ∧
      ((isOwnerAlive ⟨7, 42⟩).run sys forgedFiles).1 = true := by
  have h := @ownerIdentity_survives 7 (by norm_num) (by norm_num) forgedFiles
  constructor
  · apply h.1 ⟨'S', 42⟩ (by decide) forgedFiles_stat
    rw [run_writeOwnerPidFile_of_stat forgedFiles_stat rfl]
  · exact (h.2 forgedEntry 42 forgedFiles_line).2.mpr ⟨by decide, rfl⟩

end KWatch
