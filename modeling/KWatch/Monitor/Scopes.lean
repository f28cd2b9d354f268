import KWatch.Monitor.Serving

/-! # The owners of a monitoring process

Each start either fails and leaves the process as it was, or gives it one descriptor more, which
the destructor of its owner takes away again. Around a body that returns as many descriptors as it
was given, such an owner is a body of the same kind.
-/

namespace KWatch

open Prog Monitor

variable {K : Kernel} {s t u : Monitor} {ws : List Wakeup} {maps : List Text} {fd : ℕ}
  {d : Descriptor}

/-! ### Descriptors -/

/-- A failed call changes nothing but the answers so far. -/
def Failed (s t : Monitor) : Prop := ∃ n, t = { s with answers := n }

/-- The process has one descriptor more. -/
def Gained (s : Monitor) (fd : ℕ) (d : Descriptor) (t : Monitor) : Prop :=
  fd ∉ s.fds.keys ∧ ∃ n, t = { s with answers := n, fds := s.fds.set fd d }

/-- A start that makes a descriptor or fails. -/
def Opens {ε : Type} (s : Monitor) (d : Descriptor) : Except ε ℕ → Monitor → Prop
  | .error _, t => Failed s t
  | .ok fd, t => Gained s fd d t

theorem Gained.attached (h : Gained s fd d t) (hs : s.attached = true ∨ d.isLink = true) :
    t.attached = true := by
  obtain ⟨hnew, n, rfl⟩ := h
  simpa [Monitor.attached, Table.entries_set_of_notMem hnew] using hs

/-- The descriptor that a later one replaces under the same number. -/
theorem Gained.update {d' : Descriptor} (h : Gained s fd d t) (n : List (Option ℕ)) :
    Gained s fd d' { t with answers := n, fds := t.fds.set fd d' } := by
  obtain ⟨hnew, n', rfl⟩ := h
  exact ⟨hnew, n, by simp only [Table.set_set]⟩

theorem Gained.failed (h : Gained s fd d t) (htu : Failed t u) : Gained s fd d u := by
  obtain ⟨hnew, n, rfl⟩ := h
  obtain ⟨n', rfl⟩ := htu
  exact ⟨hnew, n', rfl⟩

theorem Failed.gained (hst : Failed s t) (h : Gained t fd d u) : Gained s fd d u := by
  obtain ⟨n, rfl⟩ := hst
  exact h

theorem Failed.trans (hst : Failed s t) (htu : Failed t u) : Failed s u := by
  obtain ⟨n, rfl⟩ := hst
  exact htu

theorem Failed.opens {ε : Type} {r : Except ε ℕ} (hst : Failed s t) (h : Opens t d r u) :
    Opens s d r u := by
  cases r with
  | error e => exact hst.trans h
  | ok fd => exact hst.gained h

/-- A call fails, or does what it does to the process. -/
theorem attempt_cases {α : Type} (K : Kernel) (f : Monitor → α × Monitor) (s : Monitor) :
    (∃ e, attempt K f s = (.error e, s.answered (some e))) ∨
      attempt K f s = (.ok (f (s.answered none)).1, (f (s.answered none)).2) := by
  unfold attempt
  cases K.errno s.answers.length with
  | some e => exact .inl ⟨e, rfl⟩
  | none => exact .inr rfl

theorem opens_attempt (K : Kernel) (d : Descriptor) (s : Monitor) :
    Opens s d (attempt K (openFd K d) s).1 (attempt K (openFd K d) s).2 := by
  rcases attempt_cases K (openFd K d) s with ⟨e, h⟩ | h <;> rw [h]
  · exact ⟨_, rfl⟩
  · exact ⟨K.alloc_fresh _, _, rfl⟩

/-- A call that only fails or succeeds. -/
theorem failed_attempt (K : Kernel) (s : Monitor) :
    Failed s (attempt K (fun s => ((), s)) s).2 := by
  rcases attempt_cases K (fun s => ((), s)) s with ⟨e, h⟩ | h <;> rw [h] <;> exact ⟨_, rfl⟩

theorem Gained.close (h : Gained s fd d t) : Failed s { t with fds := t.fds.erase fd } := by
  obtain ⟨hnew, n, rfl⟩ := h
  exact ⟨n, by simp only [Table.erase_set_of_notMem hnew]⟩

/-! ### The starts -/

theorem run_signalHandler_init (s : Monitor) :
    Ensures (monitorSys K) (Opens s .signalfd) SignalHandler.init s := by
  have hmask := failed_attempt K s
  simp only [SignalHandler.init, request, step_bind, ensures_call, monitorSys]
  split
  · exact hmask
  · simp only [ensures_call, monitorSys]
    have hopen := hmask.opens (opens_attempt K .signalfd _)
    split
    · next h => rw [h] at hopen; exact hopen
    · next h => rw [h] at hopen; exact hopen

theorem run_tickTimer_init (s : Monitor) :
    Ensures (monitorSys K) (Opens s (.timerfd 500000000)) (TickTimer.init 2) s := by
  have hopen := opens_attempt K (.timerfd 0) s
  simp only [TickTimer.init, request, step_bind, show ¬(2 : ℤ) ≤ 0 by decide, if_false,
    ensures_call, monitorSys]
  split
  · next h => rw [h] at hopen; exact hopen
  · next fd h =>
    rw [h] at hopen
    simp only [ensures_call, monitorSys]
    rcases attempt_cases K (fun s => ((), { s with
        fds := s.fds.set fd (.timerfd (1000000000 / 2 : ℤ).toNat) }))
      (attempt K (openFd K (.timerfd 0)) s).2 with ⟨e, he⟩ | he <;> rw [he]
    · exact (Gained.failed hopen ⟨_, rfl⟩).close
    · exact Gained.update hopen _

theorem run_ringBuf_init (s : Monitor) :
    Ensures (monitorSys K) (Opens s .ring) RingBuf.init s := by
  have hopen := opens_attempt K .ring s
  simp only [RingBuf.init, request, step_bind, ensures_call, monitorSys]
  split
  · next h => rw [h] at hopen; exact hopen
  · next h => rw [h] at hopen; exact hopen

/-- A call that the process has made was answered with `EPERM` or `EACCES`. -/
def Monitor.Denied (t : Monitor) : Prop := some EPERM ∈ t.answers ∨ some EACCES ∈ t.answers

/-- The exit codes for a failed start; 77 is for a denied one only. -/
def Monitor.Refused (t : Monitor) (code : ℕ) : Prop :=
  code ∈ [69, 77, 125] ∧ (code = 77 → t.Denied)

theorem Monitor.refused_125 (t : Monitor) : t.Refused 125 := ⟨by simp, by rintro ⟨⟩⟩

theorem Monitor.refused_69 (t : Monitor) : t.Refused 69 := ⟨by simp, by rintro ⟨⟩⟩

theorem Monitor.refused_exitCode {err : ℕ} (h : exitCode err = 77 → t.Denied) :
    t.Refused (exitCode err) := by
  refine ⟨?_, h⟩
  unfold exitCode
  split_ifs <;> simp

theorem exitCode_eq_77 {err : ℕ} : exitCode err = 77 ↔ err = EPERM ∨ err = EACCES := by
  unfold exitCode
  split_ifs with h <;> simpa using h

theorem Monitor.denied_answered {err : ℕ} (hcode : exitCode err = 77) :
    (s.answered (some err)).Denied := by
  rcases exitCode_eq_77.mp hcode with rfl | rfl
  · exact .inl (List.mem_concat_self ..)
  · exact .inr (List.mem_concat_self ..)

/-- The link of one of the modes that were asked for, or none. -/
def Links (s : Monitor) (ifIndex : ℕ) (modes : List (UInt32 × Text)) :
    Except ℕ (ℕ × Text) → Monitor → Prop
  | .error err, t => Failed s t ∧ (exitCode err = 77 → t.Denied)
  | .ok (fd, name), t => ∃ flags, (flags, name) ∈ modes ∧ Gained s fd (.link ifIndex flags) t

theorem Failed.links {ifIndex : ℕ} {modes modes' : List (UInt32 × Text)} (h : Failed s t)
    (hmodes : modes ⊆ modes') {r : Except ℕ (ℕ × Text)} (hr : Links t ifIndex modes r u) :
    Links s ifIndex modes' r u := by
  cases r with
  | error e => exact ⟨h.trans hr.1, hr.2⟩
  | ok link =>
    obtain ⟨flags, hmem, hu⟩ := hr
    exact ⟨flags, hmodes hmem, h.gained hu⟩

theorem run_tryModes (ifIndex : ℕ) {lastErr : ℕ} (modes : List (UInt32 × Text)) (s : Monitor)
    (hlast : exitCode lastErr = 77 → s.Denied) :
    Ensures (monitorSys K) (Links s ifIndex modes) (XdpAttach.tryModes ifIndex lastErr modes)
      s := by
  induction modes generalizing s lastErr with
  | nil => exact ⟨⟨s.answers, rfl⟩, hlast⟩
  | cons mode modes ih =>
    obtain ⟨flags, name⟩ := mode
    simp only [XdpAttach.tryModes, request, step_bind, ensures_call, monitorSys]
    rcases attempt_cases K (openFd K (.link ifIndex flags)) s with ⟨e, h⟩ | h
    · rw [h]
      have hfailed : Failed s (s.answered (some e)) := ⟨_, rfl⟩
      exact (ih _ Monitor.denied_answered).mono fun r t hr =>
        hfailed.links (List.subset_cons_self ..) hr
    · rw [h]
      exact ⟨flags, List.mem_cons_self .., K.alloc_fresh _, _, rfl⟩

theorem run_attach (ifIndex : ℕ) (requested : Text) (s : Monitor) :
    Ensures (monitorSys K) (Links s ifIndex (XdpAttach.modes requested))
      (XdpAttach.attach ifIndex none requested) s := by
  have hfd := failed_attempt K s
  simp only [XdpAttach.attach, XdpAttach.detach, request, pure_eq, ret_bind, step_bind,
    ensures_call, monitorSys]
  split
  · exact ⟨hfd, by rintro ⟨⟩⟩
  · exact (run_tryModes ifIndex _ _ (by rintro ⟨⟩)).mono fun r t hr =>
      hfd.links (List.Subset.refl _) hr

/-! ### Bodies and their owners -/

/-- A body that waits has closed nothing that it was given. -/
structure Waits (K : Kernel) (ws : List Wakeup) (s t : Monitor) : Prop where
  keeps : ∀ fd d, s.fds.get? fd = some d → t.fds.get? fd = some d
  objects : t.objects = s.objects
  files : t.files = s.files
  served : Served K ws s.toTraffic t.toTraffic

theorem Handled.waits (h : Handled K ws s t) : Waits K ws s t :=
  ⟨fun fd d hd => by rwa [h.hold.fds], h.hold.objects, h.hold.files, h.served⟩

/-- A body that has returned has closed what it opened. Either a start in it failed, or the loop
was left and the maps are unpinned. -/
structure Ends (K : Kernel) (maps : List Text) (ws : List Wakeup) (s : Monitor) (e : RunEnd)
    (t : Monitor) : Prop where
  fds : t.fds = s.fds
  objects : t.objects = s.objects
  files : t.files =
    if e.pinned then s.files else ((Skeleton.unpin maps).run (faultyPin K.faults) s.files).2
  cause : (e.pinned = true ∧ t.Refused e.code ∧ t.toTraffic = s.toTraffic) ∨
    (e = ⟨0, false⟩ ∧ Stopped K ws s.toTraffic t.toTraffic)

/-- What a body of the command does to the process it starts in. -/
abbrev Body (K : Kernel) (maps : List Text) (ws : List Wakeup) (s : Monitor) :
    Option RunEnd → Monitor → Prop :=
  Outcome (Waits K ws s) (Ends K maps ws s)

theorem Failed.body {code : ℕ} (h : Failed s t) (hcode : t.Refused code) :
    Body K maps ws s (some ⟨code, true⟩) t := by
  obtain ⟨n, rfl⟩ := h
  exact ⟨rfl, rfl, rfl, .inl ⟨rfl, hcode, rfl⟩⟩

theorem Gained.waits (h : Gained s fd d t) (hw : Waits K ws t u) : Waits K ws s u := by
  obtain ⟨hnew, n, rfl⟩ := h
  refine ⟨fun fd' d' hd' => hw.keeps fd' d' ?_, hw.objects, hw.files, hw.served⟩
  have hne : fd' ≠ fd := by
    rintro rfl
    exact hnew (Table.mem_keys_of_get? hd')
  rwa [Table.get?_set_ne _ hne]

theorem Gained.ends (h : Gained s fd d t) {e : RunEnd} (he : Ends K maps ws t e u) :
    Ends K maps ws s e (monitorSys K (.close fd) u).2 := by
  obtain ⟨hnew, n, rfl⟩ := h
  refine ⟨?_, he.objects, he.files, he.cause⟩
  simp only [monitorSys, he.fds, Table.erase_set_of_notMem hnew]

/-- The owner of a descriptor that was gained, around a body that starts with it. -/
theorem Gained.owning {body : MonitorProg (Option RunEnd)} {v : Monitor} (h : Gained s fd d t)
    (hbody : Ensures (monitorSys K) (Body K maps ws t) body v) :
    Ensures (monitorSys K) (Body K maps ws s) (owning (closeFd fd) body) v := by
  refine Ensures.owning (hbody.mono fun r u hr => ?_)
  exact hr.mono (fun _ hw => h.waits hw) fun e _ he => h.ends he

end KWatch
