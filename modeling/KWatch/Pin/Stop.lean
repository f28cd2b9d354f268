import KWatch.Pin.Rollback

/-! # A run that ends

A start that succeeds has pinned its maps and named itself in the owner file. The end of the run
removes both again, with the directories it made; the removals of what the run itself did do not
fail.
-/

namespace KWatch

open Prog

variable {F : Faults} {hist : List Sys} {s : Files} {self : OwnerState} {maps : List Text}
  {σ : List Sys × Files}

/-- What a start has installed over the files that it left in place. -/
structure Installed (s : Files) (o : OwnerState) (maps : List Text) (σ : List Sys × Files) :
    Prop where
  pins : ∃ t, Shrunk s t ∧ PinnedSoFar t.pin o maps.reverse σ
  dir : σ.2.PinDirExists
  opened : .fopenOwnerPid ∈ σ.1
  line : σ.2.ownerPid = .text (ownerLine o)

theorem Installed.held (h : Installed s self maps σ) : σ.2.Held maps self := by
  obtain ⟨t, -, hp⟩ := h.pins
  intro m hm
  simp [hp.pins, withPins, hm]

/-! ### The owner file -/

theorem procStat_faultySys (c : Sys) (σ : List Sys × Files) :
    (faultySys F c σ).2.2.procStat = σ.2.procStat := by
  obtain ⟨hist, s⟩ := σ
  rcases faultySys_cases F c hist s with h | ⟨-, h⟩ <;> rw [h]
  · exact procStat_sys c s
  · cases c with
    | fprintfOwnerPid line => exact procStat_sys (.fcloseOwnerPid _) s
    | fcloseOwnerPid line => exact procStat_sys (.fcloseOwnerPid _) s
    | _ => rfl

theorem procStat_run {α : Type} (p : SysProg α) (σ : List Sys × Files) :
    (p.run (faultySys F) σ).2.2.procStat = σ.2.procStat :=
  (uses_any p).run_rel (R := fun σ τ : List Sys × Files => τ.2.procStat = σ.2.procStat)
    (fun _ => rfl) (fun _ _ _ h h' => h'.trans h) (fun c _ => procStat_faultySys c) σ

theorem ownerPid_fcloseOwnerPid {s : Files} {line : Text} (h : s.ownerPid = .text line)
    (line' : Text) : (s.fcloseOwnerPid line').ownerPid = .text line' := by
  cases hd : s.ownerDir with
  | dir d =>
    have hp : d.ownerPid = .text line := by simpa [Files.ownerPid, hd] using h
    simp only [Files.fcloseOwnerPid, hd, hp]
    rfl
  | _ => simp [Files.ownerPid, hd] at h

/-- A line that was written without an error is there. -/
theorem run_writeOwnerLine_ok (owner : OwnerState) (σ : List Sys × Files) :
    Ensures (faultySys F) (fun r τ => r = .ok () →
      .fopenOwnerPid ∈ τ.1 ∧ τ.2.ownerPid = .text (ownerLine owner)) (writeOwnerLine owner) σ := by
  apply (run_fopenOwnerPid_faulty F σ).bind
  rintro r τ hr
  cases r with
  | error e => rintro ⟨⟩
  | ok u =>
    have hprint : OwnerOpened (faultySys F (.fprintfOwnerPid (ownerLine owner)) τ).2 :=
      OwnerOpened.fprintf hr _
    simp only [call, step_bind, ensures_call]
    cases (faultySys F (.fprintfOwnerPid (ownerLine owner)) τ).1 with
    | false => rintro ⟨⟩
    | true =>
      generalize (faultySys F (.fprintfOwnerPid (ownerLine owner)) τ).2 = υ at hprint
      obtain ⟨hist, t⟩ := υ
      obtain ⟨hopened, line, hline⟩ := hprint
      simp only [if_true, ensures_call]
      rcases faultySys_cases F (.fcloseOwnerPid (ownerLine owner)) hist t with h | ⟨-, h⟩ <;>
        rw [h]
      · exact fun _ => ⟨List.mem_append_left _ hopened, ownerPid_fcloseOwnerPid hline _⟩
      · rintro ⟨⟩

/-- The owner state that a process reads of itself is its own, unless the reading fails. -/
theorem run_currentOwnerState_ok (hself : ownerAlive σ.2.procStat self = true) :
    Ensures (faultySys F) (fun r _ => ∀ o, r = .ok o → o = self)
      (currentOwnerState self.pid) σ := by
  obtain ⟨hist, s⟩ := σ
  have hread : Ensures (faultySys F) (fun r _ => ∀ stat, r = .ok stat →
      stat.startTimeTicks = self.startTimeTicks) (readProcStat self.pid) (hist, s) := by
    unfold ownerAlive statOf at hself
    unfold readProcStat
    split at hself
    · cases hself
    · next stat hstat =>
      split at hstat
      · cases hstat
      · next hpos =>
        simp only [if_neg hpos, call, step_bind, ensures_call]
        rcases faultySys_cases F (.readProcStat self.pid) hist s with h | ⟨-, h⟩ <;> rw [h]
        · cases hr : s.procStat self.pid with
          | none => simp [hr] at hstat
          | some content =>
            simp only [hr] at hstat
            simp only [sys, hr, pure_eq, ensures_ret]
            intro stat' hstat'
            rw [hstat] at hstat'
            cases hstat'
            simpa using (decide_eq_true_eq.mp hself).2
        · rintro stat ⟨⟩
  apply hread.bind
  rintro r τ hr
  cases r with
  | error e => rintro o ⟨⟩
  | ok stat =>
    rintro o ⟨⟩
    rw [hr stat rfl]

theorem run_writeOwnerPidFile_ok (hself : ownerAlive σ.2.procStat self = true) :
    Ensures (faultyPin F) (fun (r : PinStep.Result (.writeOwnerPidFile self.pid)) τ => r = .ok () →
      .fopenOwnerPid ∈ τ.1 ∧ τ.2.ownerPid = .text (ownerLine self))
      (take (.writeOwnerPidFile self.pid)) σ := by
  have hwrite : Ensures (faultySys F) (fun r τ => r = .ok () →
      .fopenOwnerPid ∈ τ.1 ∧ τ.2.ownerPid = .text (ownerLine self))
      (writeOwnerPidFile self.pid) σ := by
    apply (run_currentOwnerState_ok hself).bind
    rintro r τ hr
    cases r with
    | error e => rintro ⟨⟩
    | ok owner =>
      obtain rfl := hr owner rfl
      exact run_writeOwnerLine_ok owner τ
  exact hwrite

/-! ### A start that succeeds -/

theorem ensures_procStat {α : Type} (p : PinProg α) (σ : List Sys × Files) :
    Ensures (faultyPin F) (fun _ τ => τ.2.procStat = σ.2.procStat) p σ :=
  (uses_any p).run_rel (R := fun σ τ : List Sys × Files => τ.2.procStat = σ.2.procStat)
    (fun _ => rfl) (fun _ _ _ h h' => h'.trans h) (fun st _ τ => procStat_run st.calls τ) σ

theorem run_recordOwner_ok (hself : ownerAlive s.procStat self = true)
    (hproc : σ.2.procStat = s.procStat) {t : Files} (ht : Shrunk s t)
    (hpinned : PinnedSoFar t.pin self maps.reverse σ) (hdir : σ.2.PinDirExists)
    (createdDir : Bool) :
    Ensures (faultyPin F) (fun r τ => r = .ok () → Installed s self maps τ)
      (Skeleton.recordOwner self maps createdDir) σ := by
  have hpinned' := hpinned.step (F := F) .ensureOwnerPidParent trivial
  have hdir' := pinDirExists_step (F := F) .ensureOwnerPidParent (by simp) hdir
  have hproc' : (faultyPin F .ensureOwnerPidParent σ).2.2.procStat = s.procStat :=
    (procStat_run _ σ).trans hproc
  simp only [Skeleton.recordOwner, take, step_bind, ensures_call]
  generalize faultyPin F .ensureOwnerPidParent σ = p at hpinned' hdir' hproc'
  obtain ⟨r, σ'⟩ := p
  cases r with
  | error e =>
    simp only [Ensures, run_call, run_bind]
    rintro ⟨⟩
  | ok u =>
    have hpinned'' := hpinned'.step (F := F) (.writeOwnerPidFile self.pid) trivial
    have hdir'' := pinDirExists_step (F := F) (.writeOwnerPidFile self.pid) (by simp) hdir'
    have hself' : ownerAlive σ'.2.procStat self = true := hproc' ▸ hself
    have hwrite := run_writeOwnerPidFile_ok (F := F) hself'
    simp only [Ensures, take, run_step] at hwrite
    simp only [ensures_call]
    generalize faultyPin F (.writeOwnerPidFile self.pid) σ' = p at hpinned'' hwrite hdir''
    obtain ⟨r, σ''⟩ := p
    cases r with
    | error e =>
      simp only [Ensures, run_call, run_bind]
      rintro ⟨⟩
    | ok u =>
      obtain ⟨hopened, hline⟩ := hwrite rfl
      exact fun _ => ⟨⟨t, ht, hpinned''⟩, hdir'', hopened, hline⟩

theorem run_pinObject_ok (hself : ownerAlive s.procStat self = true)
    (hproc : σ.2.procStat = s.procStat) (ht : Shrunk s σ.2) (hdir : σ.2.PinDirExists)
    (createdDir : Bool) :
    Ensures (faultyPin F) (fun r τ => r = .ok () → Installed s self maps τ)
      (Skeleton.pinObject self maps createdDir) σ := by
  have hkeeps : Ensures (faultyPin F) (fun _ τ => τ.2.PinDirExists ∧
      τ.2.procStat = s.procStat) (take (.pinMaps self maps)) σ :=
    ⟨pinDirExists_step _ (by simp) hdir, (ensures_procStat _ σ).trans hproc⟩
  apply ((run_pinMaps_faulty (F := F) self maps σ).and hkeeps).bind
  rintro r τ ⟨hpinned, hdir', hproc'⟩
  cases r with
  | error e =>
    simp only [Ensures, run_bind]
    rintro ⟨⟩
  | ok u =>
    exact run_recordOwner_ok hself hproc' ht hpinned hdir' createdDir

/-- A `pin` that succeeds has installed the maps and the owner file. -/
theorem run_pin_ok (F : Faults) (maps : List Text) (hist : List Sys)
    (hself : ownerAlive s.procStat self = true) :
    Ensures (faultyPin F) (fun r σ => r = .ok () → Installed s self maps σ)
      (Skeleton.pin self maps) (hist, s) := by
  apply ((run_openDir_faulty F hist s).and (ensures_procStat _ (hist, s))).bind
  rintro r ⟨hist', t⟩ ⟨ht, hproc⟩
  cases r with
  | error e => rintro ⟨⟩
  | ok createdDir =>
    obtain ⟨hs, -, -⟩ := ht.shrunk
    apply ((run_reclaim_faulty (F := F) ht maps hist').and (ensures_procStat _ (hist', t))).bind
    rintro r ⟨hist'', u⟩ ⟨hr, hproc'⟩
    cases r with
    | error e => rintro ⟨⟩
    | ok =>
      obtain ⟨hu, hdir⟩ := hr
      exact run_pinObject_ok hself (hproc'.trans hproc) (hs.trans hu) hdir createdDir

/-! ### The end -/

theorem pin_step (st : PinStep) (hst : st.KeepsPins) (σ : List Sys × Files) :
    (faultyPin F st σ).2.2.pin = σ.2.pin :=
  hst.uses.run_rel (R := fun σ τ : List Sys × Files => τ.2.pin = σ.2.pin) (fun _ => rfl)
    (fun _ _ _ h h' => h'.trans h) (fun _ => pin_faultySys) σ

theorem ownerPid_unpinMaps_faulty (maps : List Text) (σ : List Sys × Files) :
    (faultyPin F (.unpinMaps maps) σ).2.2.ownerPid = σ.2.ownerPid :=
  have huses : Uses Sys.SparesOwner (unpinMaps maps) := uses_unpinMaps (fun _ => trivial) maps
  huses.run_rel (R := fun σ τ : List Sys × Files => τ.2.ownerPid = σ.2.ownerPid) (fun _ => rfl)
    (fun _ _ _ h h' => h'.trans h) (fun _ => ownerPid_faultySys) σ

/-- What is left when the maps and the owner file of a start have been removed again. -/
structure Removed (s t : Files) : Prop where
  pins : ∀ m, t.pin m = s.pin m ∨ t.pin m = none
  owner : t.ownerPid = .absent
  pinDir : s.pinDir = .absent → t.pinDir = .absent

/-- The removal of what a start has installed. -/
theorem run_unpin_installed (h : Installed s self maps σ) :
    Ensures (faultyPin F) (fun _ τ => Removed s τ.2) (Skeleton.unpin maps) σ := by
  obtain ⟨t, ht, hpinned⟩ := h.pins
  have hpin₁ := hpinned.unpinMaps (F := F)
  have howner₁ := ownerPid_unpinMaps_faulty (F := F) maps σ
  have hdir₁ := pinDirExists_step (F := F) (.unpinMaps maps) (by simp) h.dir
  have hopened₁ : .fopenOwnerPid ∈ (faultyPin F (.unpinMaps maps) σ).2.1 :=
    (history_extends (PinStep.calls (.unpinMaps maps)) σ).subset h.opened
  simp only [Skeleton.unpin, Skeleton.dropOwner, take, step_bind, ensures_call, pure_eq]
  generalize (faultyPin F (.unpinMaps maps) σ).2 = σ₁ at hpin₁ howner₁ hdir₁ hopened₁
  have howner₂ : (faultyPin F .unlinkOwnerPid σ₁).2.2.ownerPid = .absent :=
    OwnerOpened.unlink ⟨hopened₁, _, howner₁.trans h.line⟩
  have hpin₂ := (pin_step (F := F) .unlinkOwnerPid trivial σ₁).trans hpin₁
  have hdir₂ := pinDirExists_step (F := F) .unlinkOwnerPid (by simp) hdir₁
  generalize (faultyPin F .unlinkOwnerPid σ₁).2 = σ₂ at howner₂ hpin₂ hdir₂
  have howner₃ := sameOwner_step (F := F) .rmdirOwner (by simp) (σ := σ₂) (.inl rfl)
  have hpin₃ := (pin_step (F := F) .rmdirOwner trivial σ₂).trans hpin₂
  have hdir₃ := pinDirExists_step (F := F) .rmdirOwner (by simp) hdir₂
  generalize (faultyPin F .rmdirOwner σ₂).2 = σ₃ at howner₃ hpin₃ hdir₃
  have habs₃ : σ₃.2.ownerPid = .absent := by
    rcases howner₃ with ho | ho
    · exact ho.trans howner₂
    · exact ho
  have hpin₄ := (pin_step (F := F) .rmdirPin trivial σ₃).trans hpin₃
  have howner₄ := sameOwner_step (F := F) .rmdirPin (by simp) (σ := σ₃) (.inl rfl)
  refine ⟨fun m => ?_, ?_, fun habs => ?_⟩
  · exact hpin₄ ▸ ht.pins m
  · rcases howner₄ with ho | ho
    · exact ho.trans habs₃
    · exact ho
  · refine run_rmdirPin_of_empty hdir₃ (fun m => ?_) σ₃.1
    rw [hpin₃]
    rcases ht.pins m with hm | hm
    · rw [hm]
      simp [Files.pin, habs]
    · exact hm

/-- The end of an object leaves the owner file as it was before its start, or none. -/
theorem run_destroy_sameOwner (F : Faults) (maps : List Text)
    (hself : ownerAlive s.procStat self = true) :
    Ensures (faultyPin F) (fun _ τ => SameOwner s τ.2)
      (Skeleton.pin self maps >>= Skeleton.destroy maps) ([], s) := by
  have hok := run_pin_ok F maps [] hself
  have herr := run_pin_undisturbed F s self maps []
  rw [Ensures] at hok herr
  rw [Ensures, run_bind]
  cases hr : ((Skeleton.pin self maps).run (faultyPin F) ([], s)).1 with
  | error e => exact (herr e hr).1.owner
  | ok u => exact .inr (run_unpin_installed (F := F) (hok hr)).owner

/-- Whether or not the start succeeds, after the end of its object nothing of it is left. -/
theorem run_destroy_leaves_nothing (F : Faults) (maps : List Text)
    (hself : ownerAlive s.procStat self = true) :
    Ensures (faultyPin F) (fun _ τ => LeavesNothing F self s τ.2)
      (Skeleton.pin self maps >>= Skeleton.destroy maps) ([], s) := by
  have herr := run_pin_faulty F maps [] hself
  have hok := run_pin_ok F maps [] hself
  rw [Ensures] at herr hok
  rw [Ensures, run_bind]
  cases hr : ((Skeleton.pin self maps).run (faultyPin F) ([], s)).1 with
  | error e => exact herr e hr
  | ok u =>
    have hremoved := run_unpin_installed (F := F) (hok hr)
    refine ⟨fun o hnames halive hread => ?_, fun m hm => ?_, ?_, hremoved.pinDir⟩
    · have hlive : Ensures (faultyPin F) (fun r σ => σ.2 = s ∧ ∃ e, r = .error e)
          (Skeleton.pin self maps) ([], s) := run_pin_live hnames halive hread
      obtain ⟨-, e, he⟩ := hlive
      cases hr.symm.trans he
    · rcases hremoved.pins m with hs | hs
      · exact hs.symm.trans hm
      · cases hs.symm.trans hm
    · rintro ⟨content, hcontent, -⟩
      have hnone := hremoved.owner
      simp only [Skeleton.destroy] at hcontent
      simp [Files.readOwnerPid, hnone] at hcontent

end KWatch
