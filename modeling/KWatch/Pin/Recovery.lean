import KWatch.Pin.Loops

/-! # Recovery of what a killed owner left

An owner may be killed after any system call of `Skeleton::pin` or `Skeleton::unpin`. A later
`pin` on the interface succeeds if and only if the maps that are left come first in the order in
which libbpf visits the maps. Pinning leaves such files behind, unpinning leaves the others: its
loop removes the first maps first, and the loop that is to clear the rest stops at them.
-/

namespace KWatch

open Prog

/-! ### What stays true of the files -/

/-- Nothing but directories and plain files where `pin` needs them, and no live owner. -/
structure Files.Reclaimable (later : ℤ → Option Text) (s : Files) : Prop where
  pinDir : s.pinDir ≠ .other
  runDir : s.runDir ≠ .other
  ownerDir : s.ownerDir ≠ .other
  ownerPid : s.ownerPid ≠ .subdir
  dead : ∀ content owner, s.ownerPid = .text content → parseOwnerState content = .ok owner →
    ownerAlive later owner = false

/-- A line that names no live process. -/
def DeadLine (later : ℤ → Option Text) (line : Text) : Prop :=
  ∀ owner, parseOwnerState line = .ok owner → ownerAlive later owner = false

/-- The calls that close the owner file with such a line only. -/
def Sys.Closes (good : Text → Prop) : Sys → Prop
  | .fcloseOwnerPid line => good line
  | _ => True

variable {later : ℤ → Option Text} {s : Files}

theorem deadLine_nil : DeadLine later [] := fun owner h => by cases h

theorem deadLine_ownerLine {owner : OwnerState} (h : ownerAlive later owner = false) :
    DeadLine later (ownerLine owner) := by
  intro owner' h'
  rw [parseOwnerState_ownerLine] at h'
  split at h'
  · cases h'; exact h
  · cases h'

namespace Files

theorem Reclaimable.mkdir (h : s.Reclaimable later) (d : DirPath) :
    (s.mkdir d).2.Reclaimable later := by
  have hpin : (s.mkdir d).2.pinDir ≠ .other := by
    have := h.pinDir
    cases d <;> simp only [Files.mkdir] <;> repeat' split
    all_goals simp_all
  have hrun : (s.mkdir d).2.runDir ≠ .other := by
    have := h.runDir
    cases d <;> simp only [Files.mkdir] <;> repeat' split
    all_goals simp_all
  have howner : (s.mkdir d).2.ownerDir ≠ .other := by
    have := h.ownerDir
    cases d <;> simp only [Files.mkdir] <;> repeat' split
    all_goals simp_all [Files.ownerDir]
  have hfile := s.ownerPid_mkdir d
  exact ⟨hpin, hrun, howner, hfile ▸ h.ownerPid, hfile ▸ h.dead⟩

/-- A change under the pin directory. -/
theorem Reclaimable.of_runDir (h : s.Reclaimable later) {t : Files} (hr : t.runDir = s.runDir)
    (hp : t.pinDir ≠ .other) : t.Reclaimable later := by
  have ho : t.ownerDir = s.ownerDir := by simp [Files.ownerDir, hr]
  have hf : t.ownerPid = s.ownerPid := ownerPid_congr hr
  exact ⟨hp, hr ▸ h.runDir, ho ▸ h.ownerDir, hf ▸ h.ownerPid, hf ▸ h.dead⟩

theorem Reclaimable.setOwnerPid (h : s.Reclaimable later) (d : OwnerDir) {f : OwnerFile}
    (hf : f ≠ .subdir) (hdead : ∀ content, f = .text content → DeadLine later content) :
    (s.setOwnerPid d f).Reclaimable later where
  pinDir := h.pinDir
  runDir := by simp [Files.setOwnerPid]
  ownerDir := by simp [Files.setOwnerPid, Files.ownerDir]
  ownerPid := by simpa [Files.setOwnerPid, Files.ownerDir, Files.ownerPid] using hf
  dead := fun content owner hc =>
    hdead content (by simpa [Files.setOwnerPid, Files.ownerDir, Files.ownerPid] using hc) owner

theorem Reclaimable.rmdirOwner (h : s.Reclaimable later) :
    s.rmdirOwner.2.Reclaimable later := by
  have hpin : s.rmdirOwner.2.pinDir ≠ .other := s.pinDir_rmdirOwner ▸ h.pinDir
  have hrun : s.rmdirOwner.2.runDir ≠ .other := by
    have := h.runDir
    unfold Files.rmdirOwner
    repeat' split
    all_goals simp_all
  have howner : s.rmdirOwner.2.ownerDir ≠ .other := by
    have := h.ownerDir
    unfold Files.rmdirOwner
    repeat' split
    all_goals simp_all [Files.ownerDir]
  have hfile := s.ownerPid_rmdirOwner
  exact ⟨hpin, hrun, howner, hfile ▸ h.ownerPid, hfile ▸ h.dead⟩

end Files

theorem reclaimable_sys {c : Sys} (hc : c.Closes (DeadLine later)) (h : s.Reclaimable later) :
    (sys c s).2.Reclaimable later := by
  have hp := h.pinDir
  cases c with
  | mkdir d => exact h.mkdir d
  | rmdirOwner => exact h.rmdirOwner
  | rmdirPin =>
    apply h.of_runDir s.runDir_rmdirPin
    simp only [Files.rmdirPin]
    repeat' split
    all_goals simp_all
  | unlinkPin m =>
    apply h.of_runDir (s.runDir_unlinkPin m)
    simp only [Files.unlinkPin]
    repeat' split
    all_goals simp_all
  | objPin o m =>
    apply h.of_runDir (s.runDir_objPin o m)
    simp only [Files.objPin]
    repeat' split
    all_goals simp_all
  | fopenOwnerPid =>
    simp only [sys, Files.fopenOwnerPid]
    repeat' split
    · exact h
    · exact h
    · exact h
    · apply h.setOwnerPid _ (by simp)
      intro content hc
      cases hc
      exact deadLine_nil
  | fcloseOwnerPid line =>
    simp only [sys, Files.fcloseOwnerPid]
    repeat' split
    · apply h.setOwnerPid _ (by simp)
      intro content hl
      cases hl
      exact hc
    · exact h
    · exact h
  | unlinkOwnerPid =>
    simp only [sys, Files.unlinkOwnerPid]
    repeat' split
    · exact h
    · exact h
    · exact h
    · exact h.setOwnerPid _ (by simp) (by simp)
    · exact h
  | _ => exact h

/-! ### Every state of a run -/

/-- What holds of the files from the start of an owner to its end. -/
def Stays (later procStat : ℤ → Option Text) (s : Files) : Prop :=
  s.Reclaimable later ∧ s.procStat = procStat

theorem stays_sys {procStat : ℤ → Option Text} {c : Sys} (hc : c.Closes (DeadLine later))
    (h : Stays later procStat s) : Stays later procStat (sys c s).2 :=
  ⟨reclaimable_sys hc h.1, (procStat_sys c s).trans h.2⟩

theorem stays_of_closes {procStat : ℤ → Option Text} {α : Type} {prog : SysProg α}
    (hprog : Uses (Sys.Closes (DeadLine later)) prog) (h : Stays later procStat s) :
    Always sys (Stays later procStat) prog s :=
  hprog.always (fun _ hc _ => stays_sys hc) h

theorem uses_closes {st : PinStep} (h : ∀ pid, st ≠ .writeOwnerPidFile pid)
    (good : Text → Prop) : Uses (Sys.Closes good) st.calls :=
  (uses_may st).mono fun c hc => by
    cases c with
    | fcloseOwnerPid line => cases st <;> first | exact hc.elim | exact (h _ rfl).elim
    | _ => trivial

/-- The steps of a process, the one that writes the owner file included. -/
def PinStep.By (p : OwnerState) : PinStep → Prop
  | .writeOwnerPidFile pid => pid = p.pid
  | _ => True

theorem always_calls {procStat : ℤ → Option Text} {p : OwnerState}
    (hlive : ownerAlive procStat p = true) (hdead : ownerAlive later p = false) {st : PinStep}
    (hst : st.By p) (h : Stays later procStat s) :
    Always sys (Stays later procStat) st.calls s := by
  cases st with
  | writeOwnerPidFile pid =>
    obtain rfl : pid = p.pid := hst
    have hread : Uses (Sys.Closes (DeadLine later)) (currentOwnerState p.pid) :=
      uses_currentOwnerState (fun _ => trivial) p.pid
    apply always_bind (stays_of_closes hread h)
    rw [run_currentOwnerState (by rw [h.2, hlive])]
    have hwrite : Uses (Sys.Closes (DeadLine later)) (writeOwnerLine p) :=
      uses_writeOwnerLine trivial trivial (deadLine_ownerLine hdead) trivial
    exact stays_of_closes hwrite h
  | _ => exact stays_of_closes (uses_closes (by simp) _) h

theorem uses_early_by {p : OwnerState} {α : Type} {prog : PinProg α}
    (h : Uses PinStep.Early prog) : Uses (PinStep.By p) prog :=
  h.mono fun st hst => by
    cases st with
    | writeOwnerPidFile pid => exact hst.elim
    | _ => trivial

theorem uses_recordOwner (p : OwnerState) (maps : List Text) (createdDir : Bool) :
    Uses (PinStep.By p) (Skeleton.recordOwner p maps createdDir) := by
  have hdrop : Uses (PinStep.By p) (Skeleton.dropCreated createdDir) :=
    uses_early_by (uses_dropCreated createdDir)
  apply (uses_step.mpr trivial).bind
  intro r
  cases r with
  | error e => exact (uses_step.mpr trivial).bind fun _ => hdrop.bind fun _ => trivial
  | ok =>
    have hwrite : PinStep.By p (.writeOwnerPidFile p.pid) := rfl
    apply (uses_step.mpr hwrite).bind
    intro r
    cases r with
    | error e => exact (uses_step.mpr trivial).bind fun _ => hdrop.bind fun _ => trivial
    | ok => trivial

theorem uses_pin (p : OwnerState) (maps : List Text) :
    Uses (PinStep.By p) (Skeleton.pin p maps) := by
  apply (uses_early_by uses_openDir).bind
  intro r
  cases r with
  | error e => trivial
  | ok createdDir =>
    apply (uses_early_by (uses_reclaim maps createdDir)).bind
    intro r
    cases r with
    | error e => trivial
    | ok =>
      apply (uses_step.mpr trivial).bind
      intro r
      cases r with
      | error e => exact (uses_early_by (uses_dropCreated createdDir)).bind fun _ => trivial
      | ok => exact uses_recordOwner p maps createdDir

theorem uses_unpin (p : OwnerState) (maps : List Text) :
    Uses (PinStep.By p) (Skeleton.unpin maps) :=
  (uses_step.mpr trivial).bind fun _ => (uses_step.mpr trivial).bind fun _ =>
    (uses_step.mpr trivial).bind fun _ => (uses_step.mpr trivial).bind fun _ => trivial

/-! ### The kill -/

/-- Where an owner is killed: after so many system calls of `pin`, or of a later `unpin`. -/
inductive CrashPoint
  | inPin (calls : ℕ)
  | inUnpin (calls : ℕ)

/-- What a killed owner leaves. -/
def leftover (p : OwnerState) (maps : List Text) (s : Files) : CrashPoint → Files
  | .inPin k => runFor sys k ((Skeleton.pin p maps).expand PinStep.calls) s
  | .inUnpin k => runFor sys k ((Skeleton.unpin maps).expand PinStep.calls)
      (((Skeleton.pin p maps).expand PinStep.calls).run sys s).2

theorem reclaimable_leftover {p : OwnerState} (hlive : ownerAlive s.procStat p = true)
    (hdead : ownerAlive later p = false) (h : s.Reclaimable later) (maps : List Text)
    (c : CrashPoint) : (leftover p maps s c).Reclaimable later := by
  have hkeep : ∀ st, PinStep.By p st → ∀ t, Stays later s.procStat t →
      Always sys (Stays later s.procStat) st.calls t :=
    fun st hst t ht => always_calls hlive hdead hst ht
  have hpin := (uses_pin p maps).always_expand hkeep ⟨h, rfl⟩
  cases c with
  | inPin k => exact (hpin.runFor k).1
  | inUnpin k => exact (((uses_unpin p maps).always_expand hkeep hpin.end).runFor k).1

/-! ### The later start -/

/-- The files that `unlink` removes come first in the order of the maps, and none comes later. -/
def Files.Gapless (s : Files) (maps : List Text) : Prop :=
  ∀ m ∈ maps.dropWhile s.removable, s.pin m = none

theorem gapless_iff_unpinned {maps : List Text} (hn : maps.Nodup) : s.Gapless maps ↔
    ∀ m ∈ maps, ((unpinMaps maps).run sys s).2.pin m = none := by
  have happ := List.takeWhile_append_dropWhile (p := s.removable) (l := maps)
  have hdisj := List.disjoint_of_nodup_append (happ.symm ▸ hn)
  simp only [pin_unpinMaps hn, Files.Gapless]
  constructor
  · intro h m hm
    split
    · rfl
    · next hnot =>
      rw [← happ, List.mem_append] at hm
      exact h m (hm.resolve_left hnot)
  · intro h m hm
    have hmem : m ∈ maps := by
      rw [← happ]
      exact List.mem_append_right _ hm
    have := h m hmem
    rwa [if_neg fun ht => hdisj ht hm] at this

theorem pin_eq_none_of_isEmpty (h : ((directoryIsEmpty).run sys s).1 = true) (m : Text) :
    s.pin m = none := by
  cases hd : s.pinDir with
  | dir t =>
    have ht : t.keys = [] := by simpa [directoryIsEmpty, call, sys, Files.readdirPin, hd] using h
    simpa [Files.pin, hd] using Table.get?_eq_none_iff.mpr (by simp [ht])
  | _ => simp [Files.pin, hd]

theorem run_openDir (h : s.pinDir ≠ .other) : ∃ createdDir,
    Skeleton.openDir.run pinSys s = (.ok createdDir, (s.mkdir .pinDir).2) := by
  cases hd : s.pinDir with
  | absent =>
    exact ⟨true, by simp [Skeleton.openDir, take, pinSys, Prog.atomic, PinStep.calls, call, sys,
      Files.mkdir, hd]⟩
  | other => exact absurd hd h
  | dir t =>
    exact ⟨false, by simp [Skeleton.openDir, take, pinSys, Prog.atomic, PinStep.calls, call, sys,
      Files.mkdir, Files.isDir, hd]⟩

theorem stays_calls {procStat : ℤ → Option Text} (st : PinStep)
    (hst : ∀ pid, st ≠ .writeOwnerPidFile pid) (h : Stays later procStat s) :
    Stays later procStat (st.calls.run sys s).2 :=
  (stays_of_closes (uses_closes hst _) h).end

theorem dead_of_read (h : s.Reclaimable later) {owner : OwnerState}
    (hr : (readOwnerState.run sys s).1 = .ok owner) : ownerAlive later owner = false := by
  rw [run_readOwnerState] at hr
  cases hf : s.ownerPid with
  | absent => simp [Files.readOwnerPid, hf] at hr
  | text content =>
    simp only [Files.readOwnerPid, hf] at hr
    exact h.dead content owner hf hr
  | subdir => exact absurd hf h.ownerPid

theorem run_directoryIsEmpty (s : Files) :
    directoryIsEmpty.run sys s = ((directoryIsEmpty.run sys s).1, s) := by
  cases h : s.readdirPin <;> simp [directoryIsEmpty, call, sys, h]

/-- The owner that a reclaimable interface names is dead, so its maps are unpinned. -/
theorem run_reclaim {maps : List Text} (hn : maps.Nodup) (createdDir : Bool)
    (h : Stays later later s) : ∃ t, (Skeleton.reclaim maps createdDir).run pinSys s = (.ok (), t) ∧
      Stays later later t ∧ ((∀ m ∈ maps, t.pin m = none) ↔ s.Gapless maps) := by
  have hunpin : Stays later later ((unpinMaps maps).run sys s).2 :=
    stays_calls (.unpinMaps maps) (by simp) h
  cases hr : (readOwnerState.run sys s).1 with
  | ok owner =>
    have hrun : readOwnerState.run sys s = (.ok owner, s) := by
      rw [← hr, run_readOwnerState]
    have hdead : ownerAlive s.procStat owner = false := by rw [h.2, dead_of_read h.1 hr]
    refine ⟨((unpinMaps maps).run sys s).2.unlinkOwnerPid.2, ?_,
      stays_calls .unlinkOwnerPid (by simp) hunpin, ?_⟩
    · simp [Skeleton.reclaim, take, pinSys, Prog.atomic, PinStep.calls, hrun, run_isOwnerAlive,
        hdead, call, sys]
    · rw [Files.pin_congr (Files.pinDir_unlinkOwnerPid _), gapless_iff_unpinned hn]
  | error e =>
    have hrun : readOwnerState.run sys s = (.error e, s) := by
      rw [← hr, run_readOwnerState]
    have hsame := run_directoryIsEmpty s
    cases he : (directoryIsEmpty.run sys s).1 with
    | true =>
      rw [he] at hsame
      have hnone := pin_eq_none_of_isEmpty he
      refine ⟨s, ?_, h, fun _ m _ => hnone m, fun _ m _ => hnone m⟩
      simp [Skeleton.reclaim, take, pinSys, Prog.atomic, PinStep.calls, hrun, hsame]
    | false =>
      rw [he] at hsame
      refine ⟨((unpinMaps maps).run sys s).2, ?_, hunpin, (gapless_iff_unpinned hn).symm⟩
      simp [Skeleton.reclaim, take, pinSys, Prog.atomic, PinStep.calls, hrun, hsame]

theorem pinMaps_ok_iff {p : OwnerState} {maps : List Text} (hn : maps.Nodup)
    (hd : s.pinDir ≠ .other) :
    ((pinMaps p maps).run sys s).1 = .ok () ↔ ∀ m ∈ maps, s.pin m = none :=
  ⟨fun h => ((pin_pinMaps hn s).1 h).1, fun h => pinMapsFrom_ok hn hd h⟩

theorem ensureOwnerPidParent_ok (h : s.Reclaimable later) :
    (ensureOwnerPidParent.run sys s).1 = .ok () ∧
      ∃ d, (ensureOwnerPidParent.run sys s).2.ownerDir = .dir d := by
  have howner := h.ownerDir
  cases hr : s.runDir with
  | absent => simp [ensureOwnerPidParent, ensureDir, call, sys, Files.mkdir, hr, Files.ownerDir]
  | other => exact absurd hr h.runDir
  | dir e =>
    cases e with
    | absent =>
      simp [ensureOwnerPidParent, ensureDir, call, sys, Files.mkdir, Files.isDir, hr,
        Files.ownerDir]
    | other => simp [Files.ownerDir, hr] at howner
    | dir d =>
      simp [ensureOwnerPidParent, ensureDir, call, sys, Files.mkdir, Files.isDir, hr,
        Files.ownerDir]

theorem writeOwnerPidFile_ok {owner : OwnerState} (hlive : ownerAlive s.procStat owner = true)
    {d : OwnerDir} (hd : s.ownerDir = .dir d) (hf : s.ownerPid ≠ .subdir) :
    ((writeOwnerPidFile owner.pid).run sys s).1 = .ok () := by
  have hopen : s.fopenOwnerPid.1 = .ok () := by
    cases hp : d.ownerPid <;> simp_all [Files.fopenOwnerPid, Files.ownerPid]
  rcases run_writeOwnerPidFile hlive with ⟨-, hw⟩ | ⟨e, he, -⟩
  · rw [hw]
  · rw [hopen] at he
    cases he

/-- A live process makes its directory and writes its line. -/
theorem record_ok {procStat : ℤ → Option Text} {q : OwnerState}
    (hq : ownerAlive procStat q = true) (h : Stays later procStat s) :
    (ensureOwnerPidParent.run sys s).1 = .ok () ∧
      ownerAlive (ensureOwnerPidParent.run sys s).2.procStat q = true ∧
      ((writeOwnerPidFile q.pid).run sys (ensureOwnerPidParent.run sys s).2).1 = .ok () := by
  have ht : Stays later procStat (ensureOwnerPidParent.run sys s).2 :=
    stays_calls .ensureOwnerPidParent (by simp) h
  obtain ⟨hok, d, hd⟩ := ensureOwnerPidParent_ok h.1
  have hlive : ownerAlive (ensureOwnerPidParent.run sys s).2.procStat q = true := by
    rw [ht.2, hq]
  exact ⟨hok, hlive, writeOwnerPidFile_ok hlive hd ht.1.ownerPid⟩

/-- A live process whose maps are pinned becomes the owner. -/
theorem run_recordOwner {procStat : ℤ → Option Text} {q : OwnerState}
    (hq : ownerAlive procStat q = true) {maps : List Text} (createdDir : Bool)
    (h : Stays later procStat s) (hheld : s.Held maps q) :
    ((Skeleton.recordOwner q maps createdDir).run pinSys s).1 = .ok () ∧
      ((Skeleton.recordOwner q maps createdDir).run pinSys s).2.OwnedBy maps q := by
  obtain ⟨hensure, hlive, hwrite⟩ := record_ok hq h
  have hrun : (Skeleton.recordOwner q maps createdDir).run pinSys s =
      (writeOwnerPidFile q.pid).run sys (ensureOwnerPidParent.run sys s).2 := by
    refine Prod.ext ?_ ?_ <;>
      simp [Skeleton.recordOwner, take, pinSys, Prog.atomic, PinStep.calls, hensure, hwrite]
  have hpin : ((writeOwnerPidFile q.pid).run sys (ensureOwnerPidParent.run sys s).2).2.pin =
      s.pin :=
    (pin_pinSys (.writeOwnerPidFile q.pid) trivial _).trans
      (pin_pinSys .ensureOwnerPidParent trivial s)
  rw [hrun]
  exact ⟨hwrite, fun m hm => (congrFun hpin m).trans (hheld m hm),
    ownerPid_of_written hlive hwrite⟩

/-- The last part of `pin` succeeds if and only if none of the names is taken. -/
theorem pinObject_ok_iff {procStat : ℤ → Option Text} {q : OwnerState}
    (hq : ownerAlive procStat q = true) {maps : List Text} (hn : maps.Nodup) (createdDir : Bool)
    (h : Stays later procStat s) :
    (((Skeleton.pinObject q maps createdDir).run pinSys s).1 = .ok () ↔
      ∀ m ∈ maps, s.pin m = none) ∧
    ((∀ m ∈ maps, s.pin m = none) →
      ((Skeleton.pinObject q maps createdDir).run pinSys s).2.OwnedBy maps q) := by
  have hiff := pinMaps_ok_iff (p := q) hn h.1.pinDir
  have ht : Stays later procStat ((pinMaps q maps).run sys s).2 :=
    stays_calls (.pinMaps q maps) (by simp) h
  cases hr : ((pinMaps q maps).run sys s).1 with
  | ok =>
    have hfree := hiff.mp hr
    have hheld : ((pinMaps q maps).run sys s).2.Held maps q := fun m hm =>
      (((pin_pinMaps hn s).1 hr).2 m).trans (if_pos hm)
    have hrun : (Skeleton.pinObject q maps createdDir).run pinSys s =
        (Skeleton.recordOwner q maps createdDir).run pinSys ((pinMaps q maps).run sys s).2 := by
      simp [Skeleton.pinObject, take, pinSys, Prog.atomic, PinStep.calls, hr]
    rw [hrun]
    obtain ⟨hok, howned⟩ := run_recordOwner hq createdDir ht hheld
    exact ⟨⟨fun _ => hfree, fun _ => hok⟩, fun _ => howned⟩
  | error e =>
    have hnot : ¬ ∀ m ∈ maps, s.pin m = none := fun hfree => by
      rw [hiff.mpr hfree] at hr
      cases hr
    have hrun : ((Skeleton.pinObject q maps createdDir).run pinSys s).1 =
        .error "pin failed" := by
      simp [Skeleton.pinObject, take, pinSys, Prog.atomic, PinStep.calls, hr]
    rw [hrun]
    exact ⟨⟨fun h => by (cases h), fun hfree => absurd hfree hnot⟩, fun hfree => absurd hfree hnot⟩

/-- A new process has become the owner. -/
def Recovered (q : OwnerState) (maps : List Text) (r : Except String Unit × Files) : Prop :=
  r.1 = .ok () ∧ r.2.OwnedBy maps q

/-- A later start succeeds if and only if the files that are left come first. -/
theorem recovered_iff_gapless {q : OwnerState} (hq : ownerAlive later q = true)
    {maps : List Text} (hn : maps.Nodup) (h : Stays later later s) :
    Recovered q maps (((Skeleton.pin q maps).expand PinStep.calls).run sys s) ↔
      s.Gapless maps := by
  obtain ⟨createdDir, hopen⟩ := run_openDir h.1.pinDir
  have hmk : Stays later later (s.mkdir .pinDir).2 :=
    stays_calls .mkdirPin (by simp) h
  obtain ⟨t, hreclaim, ht, hiff⟩ := run_reclaim hn createdDir hmk
  have hrun : (Skeleton.pin q maps).run pinSys s =
      (Skeleton.pinObject q maps createdDir).run pinSys t := by
    simp [Skeleton.pin, hopen, hreclaim]
  have hgap : (s.mkdir .pinDir).2.Gapless maps ↔ s.Gapless maps := by
    have hpin := s.pin_mkdir .pinDir
    have hrem : (s.mkdir .pinDir).2.removable = s.removable := by
      ext m
      exact Files.removable_congr (congrFun hpin m)
    rw [Files.Gapless, Files.Gapless, hpin, hrem]
  obtain ⟨hok, howned⟩ := pinObject_ok_iff hq hn createdDir ht
  rw [run_expand, show Prog.atomic sys PinStep.calls = pinSys from rfl, hrun, ← hgap, ← hiff]
  exact ⟨fun hr => hok.mp hr.1, fun hfree => ⟨hok.mpr hfree, howned hfree⟩⟩

end KWatch
