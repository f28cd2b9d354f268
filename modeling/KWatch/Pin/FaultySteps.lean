import KWatch.Pin.Faults
import KWatch.Pin.Recovery

/-! # The steps of a start under faults

What each step of `Skeleton::pin` ensures when any of its calls can fail, except those that take
back what the run did.
-/

namespace KWatch

open Prog

variable {F : Faults} {hist : List Sys} {s : Files} {self : OwnerState} {maps : List Text}

/-- A step is its calls. -/
theorem ensures_take {st : PinStep} {post : st.Result → List Sys × Files → Prop}
    {σ : List Sys × Files} (h : Ensures (faultySys F) post st.calls σ) :
    Ensures (faultyPin F) post (take st) σ := h

/-! ### Reading the owner -/

theorem run_readOwnerState_faulty (F : Faults) (hist : List Sys) (s : Files) :
    Ensures (faultyPin F) (fun (r : PinStep.Result .readOwnerState) σ => σ.2 = s ∧
      (F.fails hist .readOwnerPid = false → r = (readOwnerState.run sys s).1))
      (take .readOwnerState) (hist, s) := by
  apply ensures_take
  cases hf : F.fails hist .readOwnerPid with
  | true =>
    have hcall := faultySys_of_fails (s := s) hf
    simp [Ensures, PinStep.calls, readOwnerState, call, hcall, Sys.failed, Faults.leaves]
  | false =>
    have hcall := faultySys_of_spared (s := s) hf
    cases hr : s.readOwnerPid <;>
      simp [Ensures, PinStep.calls, readOwnerState, call, hcall, sys, hr]

theorem run_readProcStat_faulty (F : Faults) (hist : List Sys) (s : Files) (pid : ℤ) :
    Ensures (faultySys F) (fun r σ => σ.2 = s ∧
      (r = statOf s.procStat pid ∨ F.fails hist (.readProcStat pid) = true))
      (readProcStat pid) (hist, s) := by
  unfold readProcStat statOf
  split
  · exact ⟨rfl, .inl rfl⟩
  · cases hf : F.fails hist (.readProcStat pid) with
    | true =>
      have hcall := faultySys_of_fails (s := s) hf
      simp [Ensures, call, hcall, Sys.failed, Faults.leaves]
    | false =>
      have hcall := faultySys_of_spared (s := s) hf
      cases hr : s.procStat pid <;> simp [Ensures, call, hcall, sys, hr]

theorem run_isOwnerAlive_faulty (F : Faults) (hist : List Sys) (s : Files) (o : OwnerState) :
    Ensures (faultyPin F) (fun (r : PinStep.Result (.isOwnerAlive o)) σ => σ.2 = s ∧
      (F.fails hist (.readProcStat o.pid) = false → r = ownerAlive s.procStat o))
      (take (.isOwnerAlive o)) (hist, s) := by
  apply ensures_take
  apply (run_readProcStat_faulty F hist s o.pid).bind
  rintro r σ ⟨hσ, hr | hf⟩
  · subst hr
    unfold ownerAlive
    cases hst : statOf s.procStat o.pid with
    | error e => exact ⟨hσ, fun _ => rfl⟩
    | ok stat => exact ⟨hσ, fun _ => rfl⟩
  · cases r with
    | error e => exact ⟨hσ, by simp [hf]⟩
    | ok stat => exact ⟨hσ, by simp [hf]⟩

/-! ### The pin directory -/

theorem run_mkdirPin_faulty (F : Faults) (hist : List Sys) (s : Files) :
    Ensures (faultyPin F) (fun r σ =>
      (r = .ok () → s.pinDir = .absent ∧ σ.2 = { s with pinDir := .dir .empty }) ∧
      ∀ e, r = .error e → σ.2 = s) (take .mkdirPin) (hist, s) := by
  have hstep : faultyPin F .mkdirPin (hist, s) = faultySys F (.mkdir .pinDir) (hist, s) := rfl
  rw [Ensures, take, run_step, hstep]
  rcases faultySys_cases F (.mkdir .pinDir) hist s with h | ⟨-, h⟩ <;> rw [h]
  · cases hd : s.pinDir <;> simp [sys, Files.mkdir, hd]
  · simp [Sys.failed, Faults.leaves]

theorem run_statPin_faulty (F : Faults) (hist : List Sys) (s : Files) :
    Ensures (faultyPin F) (fun r σ => σ.2 = s ∧ (r = true → s.PinDirExists)) (take .statPin)
      (hist, s) := by
  have hstep : faultyPin F .statPin (hist, s) = faultySys F (.stat .pinDir) (hist, s) := rfl
  rw [Ensures, take, run_step, hstep]
  rcases faultySys_cases F (.stat .pinDir) hist s with h | ⟨-, h⟩ <;> rw [h]
  · cases hd : s.pinDir <;> simp [sys, Files.isDir, Files.PinDirExists, hd]
  · simp [Sys.failed, Faults.leaves]

theorem run_directoryIsEmpty_faulty (F : Faults) (hist : List Sys) (s : Files) :
    Ensures (faultyPin F) (fun (r : PinStep.Result .directoryIsEmpty) σ =>
      σ.2 = s ∧ ((∀ m, s.pin m = none) → r = true)) (take .directoryIsEmpty) (hist, s) := by
  apply ensures_take
  simp only [Ensures, PinStep.calls, directoryIsEmpty, call, step_bind, run_call]
  rcases faultySys_cases F .readdirPin hist s with h | ⟨-, h⟩ <;> rw [h]
  · cases hd : s.pinDir with
    | dir t =>
      refine ⟨by simp [sys, Files.readdirPin, hd], fun hnone => ?_⟩
      simp [sys, Files.readdirPin, hd, keys_eq_nil_of_pin hd hnone]
    | _ => simp [sys, Files.readdirPin, hd]
  · exact ⟨rfl, fun _ => rfl⟩

theorem run_rmdirPin_of_empty {t : Files} (hdir : t.PinDirExists) (hnone : ∀ m, t.pin m = none)
    (hist : List Sys) : (faultyPin F .rmdirPin (hist, t)).2.2.pinDir = .absent := by
  obtain ⟨d, hd⟩ := hdir
  have hstep : faultyPin F .rmdirPin (hist, t) = faultySys F .rmdirPin (hist, t) := rfl
  rw [hstep, faultySys_of_spared (F.spares hist .rmdirPin trivial)]
  simp [sys, Files.rmdirPin, hd, keys_eq_nil_of_pin hd hnone]

/-! ### What may go -/

/-- The owner file is as before, or there is none. -/
def SameOwner (s t : Files) : Prop := t.ownerPid = s.ownerPid ∨ t.ownerPid = .absent

theorem SameOwner.trans {t u : Files} (h : SameOwner s t) (h' : SameOwner t u) :
    SameOwner s u := by
  rcases h' with hu | hu
  · exact h.imp hu.trans hu.trans
  · exact .inr hu

/-- Nothing has come to the files of one state in another. -/
structure Shrunk (s t : Files) : Prop where
  pins : ∀ m, t.pin m = s.pin m ∨ t.pin m = none
  owner : SameOwner s t

theorem Shrunk.refl (s : Files) : Shrunk s s := ⟨fun _ => .inl rfl, .inl rfl⟩

theorem Shrunk.trans {t u : Files} (h : Shrunk s t) (h' : Shrunk t u) : Shrunk s u where
  pins := fun m => by
    rcases h'.pins m with hu | hu
    · exact (h.pins m).imp hu.trans hu.trans
    · exact .inr hu
  owner := h.owner.trans h'.owner

/-- The calls that do not write the owner file. -/
def Sys.DropsOwner : Sys → Prop
  | .fopenOwnerPid | .fprintfOwnerPid _ | .fcloseOwnerPid _ => False
  | _ => True

/-- The calls that do not pin either. -/
def Sys.Shrinks : Sys → Prop
  | .objPin _ _ => False
  | c => c.DropsOwner

theorem Sys.Shrinks.dropsOwner {c : Sys} (h : c.Shrinks) : c.DropsOwner := by
  cases c <;> trivial

theorem sameOwner_unlinkOwnerPid (s : Files) : SameOwner s s.unlinkOwnerPid.2 := by
  unfold Files.unlinkOwnerPid
  split
  · exact .inl rfl
  · exact .inl rfl
  · split
    · exact .inl rfl
    · exact .inr rfl
    · exact .inl rfl

theorem sameOwner_faultySys {c : Sys} (hc : c.DropsOwner) (σ : List Sys × Files) :
    SameOwner σ.2 (faultySys F c σ).2.2 := by
  by_cases hu : c = .unlinkOwnerPid
  · subst hu
    obtain ⟨hist, s⟩ := σ
    rcases faultySys_cases F .unlinkOwnerPid hist s with h | ⟨-, h⟩ <;> rw [h]
    · exact sameOwner_unlinkOwnerPid s
    · exact .inl rfl
  · refine .inl (ownerPid_faultySys ?_ σ)
    cases c <;> trivial

theorem shrunk_faultySys {c : Sys} (hc : c.Shrinks) (σ : List Sys × Files) :
    Shrunk σ.2 (faultySys F c σ).2.2 where
  pins := pin_faultySys_or (by rintro o m rfl; exact hc) σ
  owner := sameOwner_faultySys hc.dropsOwner σ

theorem uses_dropsOwner {st : PinStep} (h : ∀ pid, st ≠ .writeOwnerPidFile pid) :
    Uses Sys.DropsOwner st.calls :=
  (uses_may st).mono fun c hc => by
    cases c <;> first | trivial | (cases st <;> first | exact hc.elim | exact absurd rfl (h _))

theorem sameOwner_of_uses {α : Type} {p : SysProg α} (hp : Uses Sys.DropsOwner p)
    (σ : List Sys × Files) : SameOwner σ.2 (p.run (faultySys F) σ).2.2 :=
  hp.run_rel (R := fun σ τ : List Sys × Files => SameOwner σ.2 τ.2) (fun _ => .inl rfl)
    (fun _ _ _ => SameOwner.trans) (fun _ => sameOwner_faultySys) σ

theorem sameOwner_step (st : PinStep) (h : ∀ pid, st ≠ .writeOwnerPidFile pid)
    {σ : List Sys × Files} (hs : SameOwner s σ.2) : SameOwner s (faultyPin F st σ).2.2 :=
  hs.trans (sameOwner_of_uses (uses_dropsOwner h) σ)

theorem uses_shrinks {st : PinStep} (h : st.Early) : Uses Sys.Shrinks st.calls :=
  (uses_may st).mono fun c hc => by
    cases c <;> first | trivial | (cases st <;> first | exact hc.elim | exact h.elim)

theorem shrunk_step {st : PinStep} (h : st.Early) {σ : List Sys × Files} (hs : Shrunk s σ.2) :
    Shrunk s (faultyPin F st σ).2.2 :=
  hs.trans ((uses_shrinks h).run_rel (R := fun σ τ : List Sys × Files => Shrunk σ.2 τ.2)
    (fun σ => .refl σ.2) (fun _ _ _ => Shrunk.trans) (fun _ => shrunk_faultySys) σ)

theorem pinDirExists_step (st : PinStep) (h : st ≠ .rmdirPin) {σ : List Sys × Files}
    (hs : σ.2.PinDirExists) : (faultyPin F st σ).2.2.PinDirExists := by
  have hkeep : ∀ c, st.May c → ∀ τ : List Sys × Files, τ.2.PinDirExists →
      (faultySys F c τ).2.2.PinDirExists := by
    intro c hc τ hτ
    apply pinDirExists_faultySys _ hτ
    rintro rfl
    cases st <;> first | exact h rfl | exact hc.elim
  exact ((uses_may st).always (P := fun τ : List Sys × Files => τ.2.PinDirExists) hkeep hs).end

/-! ### The maps -/

/-- A map was pinned, or an attempt was made. -/
def Pinning (hist : List Sys) : Prop := ∃ self m, .objPin self m ∈ hist

theorem Pinning.mono {hist hist' : List Sys} (h : Pinning hist) (hpre : hist <+: hist') :
    Pinning hist' := by
  obtain ⟨o, m, hm⟩ := h
  exact ⟨o, m, hpre.subset hm⟩

theorem run_objPin_faulty (F : Faults) (hist : List Sys) (s : Files) (self : OwnerState)
    (m : Text) : Ensures (faultySys F) (fun r σ => Pinning σ.1 ∧
      (∀ e, r = .error e → σ.2.pin = s.pin) ∧ (r = .ok () → s.pin m = none ∧
        σ.2.pin = Function.update s.pin m (some (.map self))))
      (call (.objPin self m)) (hist, s) := by
  simp only [Ensures, call, run_step]
  have hpinning : Pinning (faultySys F (.objPin self m) (hist, s)).2.1 :=
    ⟨self, m, by simp⟩
  refine ⟨hpinning, ?_⟩
  rcases faultySys_cases F (.objPin self m) hist s with h | ⟨-, h⟩ <;> rw [h]
  · constructor
    · intro e he
      exact congrArg Files.pin (Files.objPin_error he)
    · exact Files.pin_objPin_ok
  · constructor
    · intro e he
      rfl
    · intro hok
      cases hok

theorem run_pinMap_faulty (F : Faults) (hist : List Sys) (s : Files) (self : OwnerState)
    (m : Text) : Ensures (faultySys F) (fun r σ =>
      (∀ e, r = .error e → σ.2.pin = s.pin) ∧ (r = .ok () → Pinning σ.1 ∧ s.pin m = none ∧
        σ.2.pin = Function.update s.pin m (some (.map self)))) (pinMap self m) (hist, s) := by
  have hmk : (faultySys F (.mkdir .pinDir) (hist, s)).2.2.pin = s.pin :=
    pin_faultySys (by trivial) (hist, s)
  have hpin : ∀ hist' t, t.pin = s.pin → Ensures (faultySys F) (fun r σ =>
      (∀ e, r = .error e → σ.2.pin = s.pin) ∧ (r = .ok () → Pinning σ.1 ∧ s.pin m = none ∧
        σ.2.pin = Function.update s.pin m (some (.map self)))) (call (.objPin self m))
      (hist', t) := by
    intro hist' t ht
    apply (run_objPin_faulty F hist' t self m).mono
    rintro r σ ⟨hp, herr, hok⟩
    rw [ht] at herr hok
    exact ⟨herr, fun h => ⟨hp, hok h⟩⟩
  simp only [pinMap, call, step_bind, ensures_call]
  cases (faultySys F (.mkdir .pinDir) (hist, s)).1 with
  | ok => exact hpin _ _ hmk
  | error e =>
    by_cases he : e = .EEXIST
    · simp only [he, ne_eq, not_true_eq_false, if_false]
      exact hpin _ _ hmk
    · simp [he, hmk]

/-- The clean-up of a failed `bpf_object__pin_maps` does not fail. -/
theorem run_unpinAll_faulty {hist : List Sys} (hp : Pinning hist) (ms : List Text) (s : Files) :
    ((unpinAll ms).run (faultySys F) (hist, s)).2.2 = ((unpinAll ms).run sys s).2 := by
  have huses : Uses (fun c => ∃ m, c = .unlinkPin m) (unpinAll ms) :=
    uses_unpinAll (fun m => ⟨m, rfl⟩) ms
  refine (run_faultySys_of_spared huses ?_ s).2
  rintro hist' hpre c ⟨m, rfl⟩
  exact F.spares hist' (.unlinkPin m) (hp.mono hpre)

/-- The rollback of a later failure does not fail either. -/
theorem run_unpinMaps_faulty {hist : List Sys} (hp : Pinning hist) (ms : List Text) (s : Files) :
    ((unpinMaps ms).run (faultySys F) (hist, s)).2.2 = ((unpinMaps ms).run sys s).2 := by
  have huses : Uses (fun c => ∃ m, c = .unlinkPin m) (unpinMaps ms) :=
    uses_unpinMaps (fun m => ⟨m, rfl⟩) ms
  refine (run_faultySys_of_spared huses ?_ s).2
  rintro hist' hpre c ⟨m, rfl⟩
  exact F.spares hist' (.unlinkPin m) (hp.mono hpre)

/-- The maps that have been pinned so far were free, and their pins are recorded. -/
structure PinnedSoFar (pin : Text → Option PinEntry) (o : OwnerState) (pinned : List Text)
    (σ : List Sys × Files) : Prop where
  nodup : pinned.Nodup
  free : ∀ m ∈ pinned, pin m = none
  pins : σ.2.pin = withPins pin o pinned
  pinning : pinned ≠ [] → Pinning σ.1

variable {pin : Text → Option PinEntry} {pinned : List Text} {σ : List Sys × Files}

theorem PinnedSoFar.cons (h : PinnedSoFar pin self pinned σ) {m : Text} {τ : List Sys × Files}
    (hp : Pinning τ.1) (hm : σ.2.pin m = none)
    (hpin : τ.2.pin = Function.update σ.2.pin m (some (.map self))) :
    PinnedSoFar pin self (m :: pinned) τ := by
  rw [h.pins] at hm hpin
  have hmem : m ∉ pinned := by
    intro hmem
    simp [withPins, hmem] at hm
  have hfree : pin m = none := by simpa [withPins, hmem] using hm
  exact ⟨List.nodup_cons.mpr ⟨hmem, h.nodup⟩, List.forall_mem_cons.mpr ⟨hfree, h.free⟩,
    hpin.trans (withPins_cons pin self pinned m), fun _ => hp⟩

theorem PinnedSoFar.unpinAll (h : PinnedSoFar pin self pinned σ) {τ : List Sys × Files}
    (hpre : σ.1 <+: τ.1) (hpin : τ.2.pin = σ.2.pin) :
    ((unpinAll pinned).run (faultySys F) τ).2.2.pin = pin := by
  have hs := hpin.trans h.pins
  cases hc : pinned with
  | nil =>
    rw [hc, withPins_nil] at hs
    exact hs
  | cons m ms =>
    have hp : Pinning τ.1 := (h.pinning (by simp [hc])).mono hpre
    rw [← hc, run_unpinAll_faulty hp pinned τ.2]
    exact pin_unpinAll h.nodup h.free hs

/-- All of the maps are pinned, whose names were free, or the pins are as before. -/
def PinnedOrNot (pin : Text → Option PinEntry) (self : OwnerState) (pinned : List Text) :
    Except Errno Unit → List Sys × Files → Prop
  | .ok (), σ => PinnedSoFar pin self pinned σ
  | .error _, σ => σ.2.pin = pin

theorem run_pinMapsFrom_faulty (maps : List Text) (h : PinnedSoFar pin self pinned σ) :
    Ensures (faultySys F) (PinnedOrNot pin self (maps.reverse ++ pinned))
      (pinMapsFrom self pinned maps) σ := by
  induction maps generalizing pinned σ with
  | nil => exact h
  | cons m ms ih =>
    have hpre := history_extends (F := F) (pinMap self m) σ
    obtain ⟨herr, hok⟩ := run_pinMap_faulty F σ.1 σ.2 self m
    simp only [pinMapsFrom]
    rw [Ensures, run_bind]
    cases hr : ((pinMap self m).run (faultySys F) σ).1 with
    | ok u =>
      obtain ⟨hp, hm, hpin⟩ := hok hr
      have hih := ih (h.cons hp hm hpin)
      rw [List.reverse_cons, List.append_assoc]
      exact hih
    | error e =>
      simp only [run_bind]
      exact h.unpinAll hpre (herr e hr)

theorem run_pinMaps_faulty (self : OwnerState) (maps : List Text) (σ : List Sys × Files) :
    Ensures (faultyPin F) (PinnedOrNot σ.2.pin self maps.reverse) (take (.pinMaps self maps)) σ := by
  have hstart : PinnedSoFar σ.2.pin self [] σ := ⟨List.nodup_nil, by simp, by simp, by simp⟩
  have hrun := run_pinMapsFrom_faulty (F := F) maps hstart
  rw [List.append_nil] at hrun
  exact hrun

/-- Unpinning the maps that were pinned restores the pins. -/
theorem PinnedSoFar.unpinMaps (h : PinnedSoFar pin self maps.reverse σ) :
    (faultyPin F (.unpinMaps maps) σ).2.2.pin = pin := by
  have hn : maps.Nodup := List.nodup_reverse.mp h.nodup
  have hrun : ((KWatch.unpinMaps maps).run (faultySys F) σ).2.2 =
      ((KWatch.unpinMaps maps).run sys σ.2).2 := by
    cases hm : maps with
    | nil => rfl
    | cons m ms =>
      have hp : Pinning σ.1 := h.pinning (by simp [hm])
      exact run_unpinMaps_faulty hp (m :: ms) σ.2
  have hrem : ∀ m ∈ maps, σ.2.removable m = true := by
    intro m hm
    simp [Files.removable, h.pins, withPins, hm]
  change ((KWatch.unpinMaps maps).run (faultySys F) σ).2.2.pin = pin
  rw [hrun]
  ext1 m
  rw [pin_unpinMaps hn m, List.takeWhile_eq_self_iff.mpr hrem]
  by_cases hm : m ∈ maps
  · rw [if_pos hm, h.free m (List.mem_reverse.mpr hm)]
  · simp [hm, h.pins, withPins]

theorem PinnedSoFar.step (h : PinnedSoFar pin self pinned σ) (st : PinStep) (hst : st.KeepsPins) :
    PinnedSoFar pin self pinned (faultyPin F st σ).2 where
  nodup := h.nodup
  free := h.free
  pins := by
    rw [← h.pins]
    exact hst.uses.run_rel (R := fun σ τ : List Sys × Files => τ.2.pin = σ.2.pin) (fun _ => rfl)
      (fun _ _ _ h h' => h'.trans h) (fun _ => pin_faultySys) σ
  pinning := fun hne => (h.pinning hne).mono (history_extends st.calls σ)

/-! ### The owner file -/

theorem ownerPid_of_fopen {s : Files} (h : s.fopenOwnerPid.1 = .ok ()) :
    s.fopenOwnerPid.2.ownerPid = .text [] := by
  simp only [Files.fopenOwnerPid] at h ⊢
  split at h
  · cases h
  · cases h
  · split at h
    · cases h
    · rfl

theorem ownerPid_unlinkOwnerPid {s : Files} {line : Text} (h : s.ownerPid = .text line) :
    s.unlinkOwnerPid.2.ownerPid = .absent := by
  cases hd : s.ownerDir with
  | dir d =>
    have hp : d.ownerPid = .text line := by simpa [Files.ownerPid, hd] using h
    simp only [Files.unlinkOwnerPid, hd, hp]
    rfl
  | _ => simp [Files.ownerPid, hd] at h

theorem text_fcloseOwnerPid {s : Files} (h : ∃ line, s.ownerPid = .text line) (line : Text) :
    ∃ line', (s.fcloseOwnerPid line).ownerPid = .text line' := by
  obtain ⟨line', hline⟩ := h
  cases hd : s.ownerDir with
  | dir d =>
    have hp : d.ownerPid = .text line' := by simpa [Files.ownerPid, hd] using hline
    simp only [Files.fcloseOwnerPid, hd, hp]
    exact ⟨line, rfl⟩
  | _ => simp [Files.ownerPid, hd] at hline

theorem fopenOwnerPid_error {s : Files} {e : Errno} (h : s.fopenOwnerPid.1 = .error e) :
    s.fopenOwnerPid.2 = s := by
  simp only [Files.fopenOwnerPid] at h ⊢
  split
  · rfl
  · rfl
  · split
    · rfl
    · simp_all

/-- The owner file was opened for writing, and it is there. -/
def OwnerOpened (σ : List Sys × Files) : Prop :=
  .fopenOwnerPid ∈ σ.1 ∧ ∃ line, σ.2.ownerPid = .text line

theorem OwnerOpened.fprintf (h : OwnerOpened σ) (line : Text) :
    OwnerOpened (faultySys F (.fprintfOwnerPid line) σ).2 := by
  obtain ⟨hist, s⟩ := σ
  refine ⟨by simpa using h.1, ?_⟩
  rcases faultySys_cases F (.fprintfOwnerPid line) hist s with h' | ⟨-, h'⟩ <;> rw [h']
  · exact h.2
  · exact text_fcloseOwnerPid h.2 _

theorem OwnerOpened.fclose (h : OwnerOpened σ) (line : Text) :
    OwnerOpened (faultySys F (.fcloseOwnerPid line) σ).2 := by
  obtain ⟨hist, s⟩ := σ
  refine ⟨by simpa using h.1, ?_⟩
  rcases faultySys_cases F (.fcloseOwnerPid line) hist s with h' | ⟨-, h'⟩ <;> rw [h']
  · exact text_fcloseOwnerPid h.2 _
  · exact text_fcloseOwnerPid h.2 _

/-- The removal of a half written owner file does not fail. -/
theorem OwnerOpened.unlink (h : OwnerOpened σ) :
    (faultySys F .unlinkOwnerPid σ).2.2.ownerPid = .absent := by
  obtain ⟨hist, s⟩ := σ
  obtain ⟨hopened, line, hline⟩ := h
  rw [faultySys_of_spared (F.spares hist .unlinkOwnerPid hopened)]
  exact ownerPid_unlinkOwnerPid hline

theorem run_fopenOwnerPid_faulty (F : Faults) (σ : List Sys × Files) :
    Ensures (faultySys F) (fun r τ => match r with
      | .error _ => τ.2 = σ.2
      | .ok () => OwnerOpened τ) (call .fopenOwnerPid) σ := by
  obtain ⟨hist, s⟩ := σ
  simp only [Ensures, call, run_step]
  rcases faultySys_cases F .fopenOwnerPid hist s with h | ⟨-, h⟩ <;> rw [h]
  · simp only [sys]
    cases ho : s.fopenOwnerPid.1 with
    | ok => exact ⟨by simp, [], ownerPid_of_fopen ho⟩
    | error e => exact fopenOwnerPid_error ho
  · rfl

theorem run_writeOwnerLine_faulty (F : Faults) (owner : OwnerState) (σ : List Sys × Files) :
    Ensures (faultySys F) (fun r τ => ∀ e, r = .error e → SameOwner σ.2 τ.2)
      (writeOwnerLine owner) σ := by
  apply (run_fopenOwnerPid_faulty F σ).bind
  rintro r τ hr
  cases r with
  | error e =>
    intro e' _
    exact .inl (congrArg Files.ownerPid hr)
  | ok u =>
    have hopened : OwnerOpened τ := hr
    have hprint : OwnerOpened (faultySys F (.fprintfOwnerPid (ownerLine owner)) τ).2 :=
      hopened.fprintf _
    simp only [call, step_bind, ensures_call]
    cases (faultySys F (.fprintfOwnerPid (ownerLine owner)) τ).1 with
    | false =>
      intro e _
      exact .inr hprint.unlink
    | true =>
      have hclose := hprint.fclose (F := F) (ownerLine owner)
      simp only [if_true, ensures_call]
      cases (faultySys F (.fcloseOwnerPid (ownerLine owner)) _).1 with
      | false =>
        intro e _
        exact .inr hclose.unlink
      | true =>
        intro e he
        cases he

theorem run_writeOwnerPidFile_faulty (pid : ℤ) (σ : List Sys × Files) :
    Ensures (faultyPin F) (fun (r : PinStep.Result (.writeOwnerPidFile pid)) τ =>
      ∀ e, r = .error e → SameOwner σ.2 τ.2) (take (.writeOwnerPidFile pid)) σ := by
  have hdrops : Uses Sys.DropsOwner (currentOwnerState pid) :=
    uses_currentOwnerState (fun _ => trivial) pid
  have hread : Ensures (faultySys F) (fun _ τ => SameOwner σ.2 τ.2) (currentOwnerState pid) σ :=
    sameOwner_of_uses hdrops σ
  have hwrite : Ensures (faultySys F) (fun r τ => ∀ e, r = .error e → SameOwner σ.2 τ.2)
      (writeOwnerPidFile pid) σ := by
    apply hread.bind
    rintro r τ hτ
    cases r with
    | error e => exact fun _ _ => hτ
    | ok owner =>
      apply (run_writeOwnerLine_faulty F owner τ).mono
      intro r υ hr e he
      exact hτ.trans (hr e he)
  exact hwrite

end KWatch
