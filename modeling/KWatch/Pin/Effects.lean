import KWatch.Pin.Skeleton

/-! # What the steps can change

The maps of the pin directory change only in the loops over the maps, the owner file changes only
where it is written or removed, and the process table never changes.
-/

namespace KWatch

open Prog

/-! ### System calls -/

namespace Files

theorem pin_mkdir (s : Files) (d : DirPath) : (s.mkdir d).2.pin = s.pin := by
  ext m
  cases d with
  | pinDir => cases h : s.pinDir <;> simp [mkdir, pin, h]
  | runDir => cases h : s.runDir <;> simp [mkdir, pin, h]
  | ownerDir =>
    cases h : s.runDir with
    | dir e => cases e <;> simp [mkdir, pin, h]
    | _ => simp [mkdir, pin, h]

theorem ownerPid_mkdir (s : Files) (d : DirPath) : (s.mkdir d).2.ownerPid = s.ownerPid := by
  cases d with
  | pinDir => cases h : s.pinDir <;> simp [mkdir, ownerPid, ownerDir, h]
  | runDir => cases h : s.runDir <;> simp [mkdir, ownerPid, ownerDir, h]
  | ownerDir =>
    cases h : s.runDir with
    | dir e => cases e <;> simp [mkdir, ownerPid, ownerDir, h]
    | _ => simp [mkdir, ownerPid, ownerDir, h]

theorem pin_rmdirPin (s : Files) : s.rmdirPin.2.pin = s.pin := by
  ext m
  cases h : s.pinDir with
  | dir t =>
    by_cases ht : t.keys = []
    · have : t.get? m = none := Table.get?_eq_none_iff.mpr (by simp [ht])
      simp [rmdirPin, pin, h, ht, this]
    · simp [rmdirPin, pin, h, ht]
  | _ => simp [rmdirPin, pin, h]

theorem ownerPid_rmdirOwner (s : Files) : s.rmdirOwner.2.ownerPid = s.ownerPid := by
  cases h : s.runDir with
  | dir e =>
    cases e with
    | dir d =>
      by_cases hd : d = ⟨.absent, []⟩ <;> simp [rmdirOwner, ownerPid, ownerDir, h, hd]
    | _ => simp [rmdirOwner, ownerPid, ownerDir, h]
  | _ => simp [rmdirOwner, ownerPid, ownerDir, h]

theorem pin_eq_some_iff {s : Files} {m : Text} {e : PinEntry} :
    s.pin m = some e ↔ ∃ t, s.pinDir = .dir t ∧ t.get? m = some e := by
  cases h : s.pinDir <;> simp [pin, h]

theorem unlinkPin_of_none {s : Files} {m : Text} (h : s.pin m = none) :
    (s.unlinkPin m).2 = s ∧ ∃ e, (s.unlinkPin m).1 = .error e := by
  cases hd : s.pinDir with
  | dir t =>
    have ht : t.get? m = none := by simpa [pin, hd] using h
    simp [unlinkPin, hd, ht]
  | _ => simp [unlinkPin, hd]

theorem unlinkPin_of_subdir {s : Files} {m : Text} (h : s.pin m = some .subdir) :
    (s.unlinkPin m).2 = s ∧ ∃ e, (s.unlinkPin m).1 = .error e := by
  obtain ⟨t, hd, ht⟩ := pin_eq_some_iff.mp h
  simp [unlinkPin, hd, ht]

theorem unlinkPin_of_some {s : Files} {m : Text} {e : PinEntry} (h : s.pin m = some e)
    (he : e ≠ .subdir) : (s.unlinkPin m).1 = .ok () ∧
      (s.unlinkPin m).2.pin = Function.update s.pin m none := by
  obtain ⟨t, hd, ht⟩ := pin_eq_some_iff.mp h
  have hpin : ∀ m', s.pin m' = t.get? m' := fun m' => by simp [pin, hd]
  constructor
  · cases e <;> simp_all [unlinkPin]
  · funext m'
    have hu : (s.unlinkPin m).2 = { s with pinDir := .dir (t.erase m) } := by
      cases e <;> simp_all [unlinkPin]
    rw [hu, Function.update_apply, hpin]
    exact Table.get?_erase t m m'

theorem pin_objPin_ok {s : Files} {self : OwnerState} {m : Text}
    (h : (s.objPin self m).1 = .ok ()) : s.pin m = none ∧
      (s.objPin self m).2.pin = Function.update s.pin m (some (.map self)) := by
  cases hd : s.pinDir with
  | dir t =>
    by_cases hm : m ∈ t.keys
    · simp [objPin, hd, hm] at h
    · refine ⟨by simpa [pin, hd] using Table.get?_eq_none_iff.mpr hm, ?_⟩
      funext m'
      have hpin : s.pin m' = t.get? m' := by simp [pin, hd]
      rw [Function.update_apply, hpin]
      simpa [objPin, hd, hm, pin] using Table.get?_set t m m' _
  | _ => simp [objPin, hd] at h

theorem objPin_error {s : Files} {self : OwnerState} {m : Text} {e : Errno}
    (h : (s.objPin self m).1 = .error e) : (s.objPin self m).2 = s := by
  cases hd : s.pinDir with
  | dir t => by_cases hm : m ∈ t.keys <;> simp_all [objPin]
  | _ => simp [objPin, hd]

theorem pin_congr {s t : Files} (h : s.pinDir = t.pinDir) : s.pin = t.pin := by
  ext m
  simp [pin, h]

theorem ownerPid_congr {s t : Files} (h : s.runDir = t.runDir) : s.ownerPid = t.ownerPid := by
  simp [ownerPid, ownerDir, h]

theorem pinDir_fopenOwnerPid (s : Files) : s.fopenOwnerPid.2.pinDir = s.pinDir := by
  unfold fopenOwnerPid
  split <;> try split
  all_goals rfl

theorem pinDir_fcloseOwnerPid (s : Files) (line : Text) :
    (s.fcloseOwnerPid line).pinDir = s.pinDir := by
  unfold fcloseOwnerPid
  split <;> try split
  all_goals rfl

theorem pinDir_unlinkOwnerPid (s : Files) : s.unlinkOwnerPid.2.pinDir = s.pinDir := by
  unfold unlinkOwnerPid
  split <;> try split
  all_goals rfl

theorem pinDir_rmdirOwner (s : Files) : s.rmdirOwner.2.pinDir = s.pinDir := by
  unfold rmdirOwner
  split <;> try split
  all_goals rfl

theorem runDir_rmdirPin (s : Files) : s.rmdirPin.2.runDir = s.runDir := by
  unfold rmdirPin
  split <;> try split
  all_goals rfl

theorem runDir_unlinkPin (s : Files) (m : Text) : (s.unlinkPin m).2.runDir = s.runDir := by
  unfold unlinkPin
  split <;> try split
  all_goals rfl

theorem runDir_objPin (s : Files) (self : OwnerState) (m : Text) :
    (s.objPin self m).2.runDir = s.runDir := by
  unfold objPin
  split <;> try split
  all_goals rfl

end Files

/-- The calls that leave the maps alone. -/
def Sys.KeepsPins : Sys → Prop
  | .unlinkPin _ | .objPin _ _ => False
  | _ => True

/-- The calls that leave the owner file alone. -/
def Sys.KeepsOwner : Sys → Prop
  | .fopenOwnerPid | .fcloseOwnerPid _ | .unlinkOwnerPid => False
  | _ => True

theorem pin_sys {c : Sys} (hc : c.KeepsPins) (s : Files) : (sys c s).2.pin = s.pin := by
  cases c with
  | mkdir d => exact s.pin_mkdir d
  | rmdirPin => exact s.pin_rmdirPin
  | rmdirOwner => exact Files.pin_congr s.pinDir_rmdirOwner
  | fopenOwnerPid => exact Files.pin_congr s.pinDir_fopenOwnerPid
  | fcloseOwnerPid line => exact Files.pin_congr (s.pinDir_fcloseOwnerPid line)
  | unlinkOwnerPid => exact Files.pin_congr s.pinDir_unlinkOwnerPid
  | unlinkPin m => exact hc.elim
  | objPin self m => exact hc.elim
  | _ => rfl

theorem ownerPid_sys {c : Sys} (hc : c.KeepsOwner) (s : Files) :
    (sys c s).2.ownerPid = s.ownerPid := by
  cases c with
  | mkdir d => exact s.ownerPid_mkdir d
  | rmdirOwner => exact s.ownerPid_rmdirOwner
  | rmdirPin => exact Files.ownerPid_congr s.runDir_rmdirPin
  | unlinkPin m => exact Files.ownerPid_congr (s.runDir_unlinkPin m)
  | objPin self m => exact Files.ownerPid_congr (s.runDir_objPin self m)
  | fopenOwnerPid => exact hc.elim
  | fcloseOwnerPid line => exact hc.elim
  | unlinkOwnerPid => exact hc.elim
  | _ => rfl

theorem procStat_sys (c : Sys) (s : Files) : (sys c s).2.procStat = s.procStat := by
  cases c with
  | mkdir d =>
    cases d <;> simp only [sys, Files.mkdir]
    all_goals split <;> try split
    all_goals rfl
  | _ =>
    simp only [sys, Files.rmdirPin, Files.rmdirOwner, Files.unlinkPin, Files.objPin,
      Files.fopenOwnerPid, Files.fcloseOwnerPid, Files.unlinkOwnerPid, Files.setOwnerPid]
    repeat' split
    all_goals rfl

/-- The pin directory is one. -/
def Files.PinDirExists (s : Files) : Prop := ∃ t, s.pinDir = .dir t

theorem pinDirExists_sys {c : Sys} {s : Files} (hc : c ≠ .rmdirPin) (h : s.PinDirExists) :
    (sys c s).2.PinDirExists := by
  obtain ⟨t, ht⟩ := h
  cases c with
  | rmdirPin => exact absurd rfl hc
  | mkdir d =>
    cases d with
    | pinDir => exact ⟨t, by simp [sys, Files.mkdir, ht]⟩
    | runDir => cases hr : s.runDir <;> exact ⟨t, by simp [sys, Files.mkdir, hr, ht]⟩
    | ownerDir =>
      cases hr : s.runDir with
      | dir e => cases e <;> exact ⟨t, by simp [sys, Files.mkdir, hr, ht]⟩
      | _ => exact ⟨t, by simp [sys, Files.mkdir, hr, ht]⟩
  | unlinkPin m =>
    simp only [sys, Files.unlinkPin, ht]
    cases hm : t.get? m with
    | none => exact ⟨t, ht⟩
    | some e => cases e <;> first | exact ⟨_, rfl⟩ | exact ⟨t, ht⟩
  | objPin self m =>
    simp only [sys, Files.objPin, ht]
    split
    · exact ⟨t, ht⟩
    · exact ⟨_, rfl⟩
  | rmdirOwner => exact ⟨t, s.pinDir_rmdirOwner.trans ht⟩
  | fopenOwnerPid => exact ⟨t, s.pinDir_fopenOwnerPid.trans ht⟩
  | fcloseOwnerPid line => exact ⟨t, (s.pinDir_fcloseOwnerPid line).trans ht⟩
  | unlinkOwnerPid => exact ⟨t, s.pinDir_unlinkOwnerPid.trans ht⟩
  | _ => exact ⟨t, ht⟩

theorem pin_unlinkPin_or (s : Files) (m' m : Text) :
    (s.unlinkPin m').2.pin m = s.pin m ∨ (s.unlinkPin m').2.pin m = none := by
  cases hp : s.pin m' with
  | none => rw [(Files.unlinkPin_of_none hp).1]; exact .inl rfl
  | some e =>
    by_cases he : e = .subdir
    · rw [(Files.unlinkPin_of_subdir (he ▸ hp)).1]
      exact .inl rfl
    · rw [(Files.unlinkPin_of_some hp he).2]
      by_cases hm : m = m'
      · exact .inr (by rw [hm, Function.update_self])
      · exact .inl (Function.update_of_ne hm _ _)

theorem keys_eq_nil_of_pin {s : Files} {t : Table Text PinEntry} (hd : s.pinDir = .dir t)
    (h : ∀ m, s.pin m = none) : t.keys = [] := by
  apply List.eq_nil_iff_forall_not_mem.mpr
  intro m
  exact Table.get?_eq_none_iff.mp (by simpa [Files.pin, hd] using h m)

/-! ### Processes -/

/-- What `read_proc_stat` returns, given the process table. -/
def statOf (procStat : ℤ → Option Text) (pid : ℤ) : Except String ProcStat :=
  if pid ≤ 0 then .error "invalid pid"
  else match procStat pid with
    | none => .error "proc stat missing"
    | some content => parseProcStat content

/-- Whether the process that an owner state names is in the process table. -/
def ownerAlive (procStat : ℤ → Option Text) (owner : OwnerState) : Bool :=
  match statOf procStat owner.pid with
  | .error _ => false
  | .ok stat => stat.state ≠ 'Z' ∧ stat.startTimeTicks = owner.startTimeTicks

/-- The owner file names a process. -/
def Files.Names (s : Files) (o : OwnerState) : Prop :=
  ∃ content, s.readOwnerPid = some content ∧ parseOwnerState content = .ok o

/-- The owner file names a live process. -/
def Files.HasLiveOwner (s : Files) : Prop := ∃ o, s.Names o ∧ ownerAlive s.procStat o = true

/-- A line of `/proc/<pid>/stat`. -/
def sleepingStat (owner : OwnerState) : Text :=
  printInt owner.pid ++ " (kwatch) S".toList ++ (List.replicate 18 " 0".toList).flatten ++
    ' ' :: Nat.toDigits 10 owner.startTimeTicks.toNat ++ ['\n']

/-- Nothing is pinned, and two processes live. -/
def noPins : Files where
  pinDir := .absent
  runDir := .absent
  procStat := fun pid =>
    if pid = 7 then some (sleepingStat ⟨7, 5⟩)
    else if pid = 8 then some (sleepingStat ⟨8, 6⟩) else none

theorem run_readProcStat (pid : ℤ) (s : Files) :
    (readProcStat pid).run sys s = (statOf s.procStat pid, s) := by
  unfold readProcStat statOf
  split
  · rfl
  · cases h : s.procStat pid <;> simp [call, sys, h]

theorem run_isOwnerAlive (owner : OwnerState) (s : Files) :
    (isOwnerAlive owner).run sys s = (ownerAlive s.procStat owner, s) := by
  simp only [isOwnerAlive, run_bind, run_readProcStat, ownerAlive]
  cases statOf s.procStat owner.pid <;> rfl

theorem run_readOwnerState (s : Files) : readOwnerState.run sys s =
    (match s.readOwnerPid with
      | none => .error "owner file missing"
      | some content => parseOwnerState content, s) := by
  cases h : s.readOwnerPid <;> simp [readOwnerState, call, sys, h]

theorem readOwnerState_of_names {s : Files} {o : OwnerState} (h : s.Names o) :
    (readOwnerState.run sys s).1 = .ok o := by
  obtain ⟨content, hread, hparse⟩ := h
  simp only [run_readOwnerState, hread, hparse]

theorem statOf_of_alive {procStat : ℤ → Option Text} {owner : OwnerState}
    (h : ownerAlive procStat owner = true) :
    ∃ c, statOf procStat owner.pid = .ok ⟨c, owner.startTimeTicks⟩ := by
  unfold ownerAlive at h
  cases hs : statOf procStat owner.pid with
  | error e => simp [hs] at h
  | ok stat =>
    simp only [hs, decide_eq_true_eq] at h
    exact ⟨stat.state, by rw [← h.2]⟩

theorem run_currentOwnerState {owner : OwnerState} {s : Files}
    (h : ownerAlive s.procStat owner = true) :
    (currentOwnerState owner.pid).run sys s = (.ok owner, s) := by
  obtain ⟨c, hc⟩ := statOf_of_alive h
  simp [currentOwnerState, run_readProcStat, hc]

theorem Files.ownerPid_fcloseOwnerPid {s : Files} (h : s.fopenOwnerPid.1 = .ok ())
    (line : Text) : (s.fopenOwnerPid.2.fcloseOwnerPid line).ownerPid = .text line := by
  cases hd : s.ownerDir with
  | dir d =>
    cases hp : d.ownerPid <;>
      simp_all [fopenOwnerPid, fcloseOwnerPid, setOwnerPid, ownerDir, ownerPid]
  | _ => simp [fopenOwnerPid, hd] at h

/-- A live process writes its own line, or fails to open the file. -/
theorem run_writeOwnerPidFile {owner : OwnerState} {s : Files}
    (h : ownerAlive s.procStat owner = true) :
    (s.fopenOwnerPid.1 = .ok () ∧ (writeOwnerPidFile owner.pid).run sys s =
      (.ok (), s.fopenOwnerPid.2.fcloseOwnerPid (ownerLine owner))) ∨
    ∃ e, s.fopenOwnerPid.1 = .error e ∧
      (writeOwnerPidFile owner.pid).run sys s =
        (.error "owner file open failed", s.fopenOwnerPid.2) := by
  cases ho : s.fopenOwnerPid.1 <;>
    simp [writeOwnerPidFile, writeOwnerLine, run_currentOwnerState h, call, sys, ho]

theorem ownerPid_of_written {owner : OwnerState} {s : Files}
    (h : ownerAlive s.procStat owner = true)
    (hok : ((writeOwnerPidFile owner.pid).run sys s).1 = .ok ()) :
    ((writeOwnerPidFile owner.pid).run sys s).2.ownerPid = .text (ownerLine owner) := by
  rcases run_writeOwnerPidFile h with ⟨ho, hw⟩ | ⟨e, -, hw⟩
  · rw [hw]
    exact Files.ownerPid_fcloseOwnerPid ho _
  · simp [hw] at hok

/-! ### Procedures without a loop -/

section Uses

variable {ok : Sys → Prop}

theorem uses_readProcStat (h : ∀ pid, ok (.readProcStat pid)) (pid : ℤ) :
    Uses ok (readProcStat pid) := by
  unfold readProcStat
  split
  · trivial
  · exact Uses.bind (uses_step.mpr (h pid)) fun r => by cases r <;> trivial

theorem uses_isOwnerAlive (h : ∀ pid, ok (.readProcStat pid)) (owner : OwnerState) :
    Uses ok (isOwnerAlive owner) :=
  (uses_readProcStat h owner.pid).bind fun r => by cases r <;> trivial

theorem uses_currentOwnerState (h : ∀ pid, ok (.readProcStat pid)) (pid : ℤ) :
    Uses ok (currentOwnerState pid) :=
  (uses_readProcStat h pid).bind fun r => by cases r <;> trivial

theorem uses_readOwnerState (h : ok .readOwnerPid) : Uses ok readOwnerState :=
  (uses_step.mpr h).bind fun r => by cases r <;> trivial

theorem uses_directoryIsEmpty (h : ok .readdirPin) : Uses ok directoryIsEmpty :=
  (uses_step.mpr h).bind fun r => by cases r <;> trivial

theorem uses_ensureDir (hm : ∀ d, ok (.mkdir d)) (hs : ∀ d, ok (.stat d)) (d : DirPath) :
    Uses ok (ensureDir d) := by
  apply (uses_step.mpr (hm d)).bind
  intro r
  cases r with
  | ok => trivial
  | error e =>
    by_cases he : e = .EEXIST
    · subst he
      exact (uses_step.mpr (hs d)).bind fun r => by cases r <;> trivial
    · simp [he]

theorem uses_ensureOwnerPidParent (hm : ∀ d, ok (.mkdir d)) (hs : ∀ d, ok (.stat d)) :
    Uses ok ensureOwnerPidParent :=
  (uses_ensureDir hm hs .runDir).bind fun r => by
    cases r with
    | ok => exact uses_ensureDir hm hs .ownerDir
    | error e => trivial

theorem uses_writeOwnerLine {owner : OwnerState} (ho : ok .fopenOwnerPid)
    (hf : ok (.fprintfOwnerPid (ownerLine owner))) (hc : ok (.fcloseOwnerPid (ownerLine owner)))
    (hu : ok .unlinkOwnerPid) : Uses ok (writeOwnerLine owner) := by
  apply (uses_step.mpr ho).bind
  intro r
  cases r with
  | error e => trivial
  | ok =>
    apply (uses_step.mpr hf).bind
    intro r
    cases r with
    | false => exact (uses_step.mpr hu).bind fun _ => trivial
    | true =>
      apply (uses_step.mpr hc).bind
      intro r
      cases r with
      | false => exact (uses_step.mpr hu).bind fun _ => trivial
      | true => trivial

theorem uses_writeOwnerPidFile (h : ∀ pid, ok (.readProcStat pid)) (ho : ok .fopenOwnerPid)
    (hf : ∀ line, ok (.fprintfOwnerPid line)) (hc : ∀ line, ok (.fcloseOwnerPid line))
    (hu : ok .unlinkOwnerPid) (pid : ℤ) : Uses ok (writeOwnerPidFile pid) := by
  apply (uses_currentOwnerState h pid).bind
  intro r
  cases r with
  | error e => trivial
  | ok owner => exact uses_writeOwnerLine ho (hf _) (hc _) hu

theorem uses_unpinMaps (h : ∀ m, ok (.unlinkPin m)) (maps : List Text) :
    Uses ok (unpinMaps maps) := by
  induction maps with
  | nil => trivial
  | cons m ms ih =>
    apply (uses_step.mpr (h m)).bind
    intro r
    cases r with
    | error e => trivial
    | ok => exact ih

theorem uses_unpinAll (h : ∀ m, ok (.unlinkPin m)) (maps : List Text) :
    Uses ok (unpinAll maps) := by
  induction maps with
  | nil => trivial
  | cons m ms ih => exact (uses_step.mpr (h m)).bind fun _ => ih

theorem uses_pinMap (hm : ∀ d, ok (.mkdir d)) {self : OwnerState}
    (hp : ∀ m, ok (.objPin self m)) (m : Text) : Uses ok (pinMap self m) := by
  apply (uses_step.mpr (hm _)).bind
  intro r
  cases r with
  | ok => exact uses_step.mpr (hp m)
  | error e =>
    by_cases he : e = .EEXIST
    · subst he
      exact uses_step.mpr (hp m)
    · simp [he]

theorem uses_pinMapsFrom (hm : ∀ d, ok (.mkdir d)) (hu : ∀ m, ok (.unlinkPin m))
    {self : OwnerState} (hp : ∀ m, ok (.objPin self m)) (pinned maps : List Text) :
    Uses ok (pinMapsFrom self pinned maps) := by
  induction maps generalizing pinned with
  | nil => trivial
  | cons m ms ih =>
    apply (uses_pinMap hm hp m).bind
    intro r
    cases r with
    | ok => exact ih (m :: pinned)
    | error e => exact (uses_unpinAll hu pinned).bind fun _ => trivial

end Uses

/-! ### Steps -/

/-- The steps that leave the maps alone. -/
def PinStep.KeepsPins : PinStep → Prop
  | .unpinMaps _ | .pinMaps _ _ => False
  | _ => True

/-- The steps that leave the owner file alone. -/
def PinStep.KeepsOwner : PinStep → Prop
  | .writeOwnerPidFile _ | .unlinkOwnerPid => False
  | _ => True

/-- The system calls that a step may make. -/
def PinStep.May : PinStep → Sys → Prop
  | .mkdirPin, .mkdir d => d = .pinDir
  | .statPin, .stat d => d = .pinDir
  | .readOwnerState, .readOwnerPid => True
  | .isOwnerAlive _, .readProcStat _ => True
  | .directoryIsEmpty, .readdirPin => True
  | .unpinMaps _, .unlinkPin _ => True
  | .pinMaps _ _, .mkdir _ | .pinMaps _ _, .unlinkPin _ => True
  | .pinMaps self _, .objPin o _ => o = self
  | .unlinkOwnerPid, .unlinkOwnerPid => True
  | .ensureOwnerPidParent, .mkdir _ | .ensureOwnerPidParent, .stat _ => True
  | .writeOwnerPidFile _, .readProcStat _ | .writeOwnerPidFile _, .fopenOwnerPid
  | .writeOwnerPidFile _, .fprintfOwnerPid _ | .writeOwnerPidFile _, .fcloseOwnerPid _
  | .writeOwnerPidFile _, .unlinkOwnerPid => True
  | .rmdirOwner, .rmdirOwner => True
  | .rmdirPin, .rmdirPin => True
  | _, _ => False

theorem uses_may (st : PinStep) : Uses st.May st.calls := by
  cases st with
  | readOwnerState => exact uses_readOwnerState trivial
  | isOwnerAlive owner => exact uses_isOwnerAlive (fun _ => trivial) owner
  | directoryIsEmpty => exact uses_directoryIsEmpty trivial
  | unpinMaps maps => exact uses_unpinMaps (fun _ => trivial) maps
  | pinMaps self maps =>
    exact uses_pinMapsFrom (fun _ => trivial) (fun _ => trivial) (fun _ => rfl) [] maps
  | ensureOwnerPidParent => exact uses_ensureOwnerPidParent (fun _ => trivial) fun _ => trivial
  | writeOwnerPidFile pid =>
    exact uses_writeOwnerPidFile (fun _ => trivial) trivial (fun _ => trivial) (fun _ => trivial)
      trivial pid
  | mkdirPin => exact uses_step.mpr rfl
  | statPin => exact uses_step.mpr rfl
  | _ => exact uses_step.mpr trivial

theorem PinStep.KeepsPins.uses {st : PinStep} (h : st.KeepsPins) :
    Uses Sys.KeepsPins st.calls :=
  (uses_may st).mono fun c hc => by
    cases c with
    | unlinkPin m => cases st <;> first | exact hc.elim | exact h.elim
    | objPin o m => cases st <;> first | exact hc.elim | exact h.elim
    | _ => trivial

theorem PinStep.KeepsOwner.uses {st : PinStep} (h : st.KeepsOwner) :
    Uses Sys.KeepsOwner st.calls :=
  (uses_may st).mono fun c hc => by
    cases c with
    | fopenOwnerPid => cases st <;> first | exact hc.elim | exact h.elim
    | fcloseOwnerPid line => cases st <;> first | exact hc.elim | exact h.elim
    | unlinkOwnerPid => cases st <;> first | exact hc.elim | exact h.elim
    | _ => trivial

theorem pin_pinSys (st : PinStep) (h : st.KeepsPins) (s : Files) :
    (pinSys st s).2.pin = s.pin := h.uses.run_eq (fun _ => pin_sys) s

theorem ownerPid_pinSys (st : PinStep) (h : st.KeepsOwner) (s : Files) :
    (pinSys st s).2.ownerPid = s.ownerPid := h.uses.run_eq (fun _ => ownerPid_sys) s

theorem procStat_pinSys (st : PinStep) (s : Files) : (pinSys st s).2.procStat = s.procStat :=
  (uses_any st.calls).run_eq (fun c _ => procStat_sys c) s

/-! ### The parts of `pin` -/

/-- The steps that neither pin maps nor write the owner file. -/
def PinStep.Early : PinStep → Prop
  | .writeOwnerPidFile _ | .pinMaps _ _ => False
  | _ => True

theorem uses_openDir : Uses PinStep.Early Skeleton.openDir := by
  apply (uses_step.mpr trivial).bind
  intro r
  cases r with
  | ok => trivial
  | error e =>
    by_cases he : e = .EEXIST
    · subst he
      exact (uses_step.mpr trivial).bind fun r => by cases r <;> trivial
    · simp [he]

theorem uses_reclaim (maps : List Text) (createdDir : Bool) :
    Uses PinStep.Early (Skeleton.reclaim maps createdDir) := by
  apply (uses_step.mpr trivial).bind
  intro r
  cases r with
  | ok owner =>
    apply (uses_step.mpr trivial).bind
    intro r
    cases r with
    | true =>
      cases createdDir with
      | true => exact (uses_step.mpr trivial).bind fun _ => trivial
      | false => trivial
    | false =>
      exact (uses_step.mpr trivial).bind fun _ => (uses_step.mpr trivial).bind fun _ => trivial
  | error e =>
    apply (uses_step.mpr trivial).bind
    intro r
    cases r with
    | true => trivial
    | false => exact (uses_step.mpr trivial).bind fun _ => trivial

theorem uses_dropCreated (createdDir : Bool) :
    Uses PinStep.Early (Skeleton.dropCreated createdDir) := by
  cases createdDir with
  | false => trivial
  | true =>
    apply (uses_step.mpr trivial).bind
    intro r
    cases r with
    | false => trivial
    | true => exact (uses_step.mpr trivial).bind fun _ => trivial

end KWatch
