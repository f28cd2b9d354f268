import KWatch.Monitor.Scopes

/-! # The life of a monitoring process

Whatever calls fail, except the removals that undo pinning, `kwatch run` leaves its descriptors, its
object and the files of the interface as it found them when it returns, up to what a start reclaims.
While it waits, its program is on the interface in a mode that was asked for, its maps are pinned,
and the owner file names it.
-/

namespace KWatch

open Prog Monitor

variable {K : Kernel} {s t : Monitor} {ws : List Wakeup} {maps : List Text} {self : OwnerState}

/-- The steps of the files change the files only. -/
theorem run_pinRequests {α : Type} (p : PinProg α) (s : Monitor) :
    (pinRequests p).run (monitorSys K) s = ((p.run (faultyPin K.faults) s.files).1,
      { s with files := (p.run (faultyPin K.faults) s.files).2 }) :=
  run_expand_part Monitor.files (fun files s => { s with files := files })
    (fun _ _ => rfl) (fun _ => rfl) (fun _ _ _ => rfl) (fun _ _ => rfl) p s

theorem ensures_pinRequests {α : Type} (p : PinProg α) (s : Monitor) :
    Ensures (monitorSys K) (fun r t => p.run (faultyPin K.faults) s.files = (r, t.files) ∧
      t = { s with files := t.files }) (pinRequests p) s := by
  rw [Ensures, run_pinRequests]
  exact ⟨rfl, rfl⟩

/-! ### From the loop outwards -/

/-- The epoll descriptor under whatever it is registered with. -/
theorem gained_register {ep : ℕ} {interest : List ℕ} (h : Gained s ep (.epoll interest) t)
    (fd : ℕ) :
    ∃ interest', Gained s ep (.epoll interest') (monitorSys K (.epollCtlAdd ep fd) t).2 := by
  simp only [monitorSys]
  rcases attempt_cases K (fun s => ((), s.register ep fd)) t with ⟨e, he⟩ | he <;> rw [he]
  · exact ⟨interest, h.failed ⟨_, rfl⟩⟩
  · have hget : (t.answered none).fds.get? ep = some (.epoll interest) := by
      obtain ⟨-, n, rfl⟩ := h
      exact Table.get?_set_self ..
    refine ⟨interest ++ [fd], ?_⟩
    simp only [Monitor.register, hget]
    exact h.update _

theorem run_runWaiting (src : Sources) (ep : ℕ) (s : Monitor) (hs : s.attached = true) :
    Ensures (monitorSys K) (Body K maps ws s) (runWaiting maps ws src ep) s := by
  apply (run_waitLoop (K := K) src ep ws s hs).bind
  rintro r t hr
  cases r with
  | none => exact Handled.waits hr
  | some u =>
    obtain ⟨hstop, hhold⟩ := hr
    simp only [Ensures, run_bind, run_pinRequests, hhold.files]
    exact ⟨hhold.fds, hhold.objects, rfl, .inr ⟨rfl, hstop⟩⟩

theorem run_runLoop (src : Sources) (s : Monitor) (hs : s.attached = true) :
    Ensures (monitorSys K) (Body K maps ws s) (runLoop maps ws src) s := by
  have hopen := opens_attempt K (.epoll []) s
  simp only [runLoop, request, step_bind, ensures_call, monitorSys]
  split
  · next h =>
    rw [h] at hopen
    exact Failed.body hopen (Monitor.refused_125 _)
  · next ep h =>
    rw [h] at hopen
    obtain ⟨_, h₁⟩ := gained_register (K := K) hopen src.sigs
    obtain ⟨_, h₂⟩ := gained_register (K := K) h₁ src.tick
    obtain ⟨_, h₃⟩ := gained_register (K := K) h₂ src.ringbuf
    refine h₃.owning ?_
    simp only [ensures_call]
    exact run_runWaiting src ep _ (h₃.attached (.inl hs))

theorem run_runRingbuf (sigs tick : ℕ) (s : Monitor) (hs : s.attached = true) :
    Ensures (monitorSys K) (Body K maps ws s) (runRingbuf maps ws sigs tick) s := by
  apply (run_ringBuf_init (K := K) s).bind
  rintro r t ht
  cases r with
  | error e => exact Failed.body ht (Monitor.refused_125 _)
  | ok ringbuf => exact Gained.owning ht (run_runLoop _ t (Gained.attached ht (.inl hs)))

theorem run_runTick (sigs : ℕ) (s : Monitor) (hs : s.attached = true) :
    Ensures (monitorSys K) (Body K maps ws s) (runTick maps ws sigs) s := by
  apply (run_tickTimer_init (K := K) s).bind
  rintro r t ht
  cases r with
  | error e => exact Failed.body ht (Monitor.refused_125 _)
  | ok tick => exact Gained.owning ht (run_runRingbuf _ _ t (Gained.attached ht (.inl hs)))

theorem run_runSigs (s : Monitor) (hs : s.attached = true) :
    Ensures (monitorSys K) (Body K maps ws s) (runSigs maps ws) s := by
  apply (run_signalHandler_init (K := K) s).bind
  rintro r t ht
  cases r with
  | error e => exact Failed.body ht (Monitor.refused_125 _)
  | ok sigs => exact Gained.owning ht (run_runTick _ t (Gained.attached ht (.inl hs)))

/-- A link to an interface, in one of the modes that stand for a requested one. -/
def Linked (ifIndex : ℕ) (requested : Text) (t : Monitor) : Prop :=
  ∃ fd flags name, (flags, name) ∈ XdpAttach.modes requested ∧
    t.fds.get? fd = some (.link ifIndex flags)

theorem run_runAttached (ifIndex : ℕ) (xdpMode : Text) (s : Monitor) :
    Ensures (monitorSys K)
      (Outcome (fun t => Waits K ws s t ∧ Linked ifIndex xdpMode t) (Ends K maps ws s))
      (runAttached maps ws ifIndex xdpMode) s := by
  apply (run_attach (K := K) ifIndex xdpMode s).bind
  rintro r t ht
  cases r with
  | error e => exact ht.1.body (Monitor.refused_exitCode ht.2)
  | ok link =>
    obtain ⟨fd, name⟩ := link
    obtain ⟨flags, hmode, hgain⟩ := ht
    refine Ensures.owning ((run_runSigs (K := K) t (hgain.attached (.inr rfl))).mono ?_)
    rintro r u hr
    cases r with
    | none =>
      have hlink : t.fds.get? fd = some (.link ifIndex flags) := by
        obtain ⟨-, n, rfl⟩ := hgain
        exact Table.get?_set_self ..
      exact ⟨hgain.waits hr, fd, flags, name, hmode, hr.keeps fd _ hlink⟩
    | some e => exact hgain.ends hr

/-! ### The whole command -/

/-- The traffic of a program that was just loaded. -/
def Traffic.loaded (sampleN : UInt32) : Traffic :=
  ⟨kwatchMakeRuntimeConfig sampleN 10, .empty, .new, []⟩

/-- What loading leaves: an object more, or nothing but a configuration that no one uses. -/
def Loads (sampleN : UInt32) (s : Monitor) : Except ℕ Unit → Monitor → Prop
  | .error err, t => SameHold s t ∧ t.ring = s.ring ∧ (s.maps = .empty → t.maps = .empty) ∧
      (exitCode err = 77 → t.Denied)
  | .ok (), t => ∃ n, t = { s with
      answers := n, objects := s.objects + 1, config := kwatchMakeRuntimeConfig sampleN 10
      maps := .empty }

theorem run_loaded (sampleN : UInt32) (s : Monitor) (result : ℤ) (n : List (Option ℕ)) :
    Ensures (monitorSys K) (Loads sampleN s) (Skeleton.loaded result) { s with
      answers := n ++ [loadError result], objects := s.objects + 1
      config := kwatchMakeRuntimeConfig sampleN 10, maps := .empty } := by
  unfold Skeleton.loaded
  by_cases h : result ≠ 0
  · rw [if_pos h]
    refine ⟨⟨rfl, rfl, rfl⟩, rfl, fun _ => rfl, fun hcode => ?_⟩
    have hneg : ¬ -result ≤ 0 := fun hpos => by simp [hpos, exitCode, EIO, EPERM, EACCES] at hcode
    rw [if_neg hneg] at hcode
    have hload : loadError result = some (-result).toNat := if_pos (by omega)
    have hmem : some (-result).toNat ∈ n ++ [loadError result] := by
      rw [hload]
      exact List.mem_concat_self ..
    rcases exitCode_eq_77.mp hcode with herr | herr
    · rw [herr] at hmem
      exact .inl hmem
    · rw [herr] at hmem
      exact .inr hmem
  · rw [if_neg h]
    exact ⟨_, rfl⟩

theorem run_openAndLoad (sampleN : UInt32) (s : Monitor) :
    Ensures (monitorSys K) (Loads sampleN s) (Skeleton.openAndLoad sampleN 10) s := by
  simp only [Skeleton.openAndLoad, request, step_bind, ensures_call, monitorSys]
  rcases attempt_cases K (fun s => ((), { s with objects := s.objects + 1 })) s with
    ⟨e, h⟩ | h
  · rw [h]
    refine ⟨⟨rfl, rfl, rfl⟩, rfl, id, fun hcode => ?_⟩
    split_ifs at hcode
    · exact Monitor.denied_answered hcode
    · cases hcode
  · rw [h]
    simp only [ensures_call, monitorSys]
    exact run_loaded sampleN s _ _

/-- A loaded program that has ended, and its object with it. -/
structure Destroys (K : Kernel) (maps : List Text) (ws : List Wakeup) (o : OwnerState)
    (s : Monitor) (e : RunEnd) (t : Monitor) : Prop where
  fds : t.fds = s.fds
  objects : t.objects = s.objects - 1
  files : t.files =
    ((Skeleton.pin o maps >>= Skeleton.destroy maps).run (faultyPin K.faults) s.files).2
  cause : (t.Refused e.code ∧ t.toTraffic = s.toTraffic) ∨
    (e.code = 0 ∧ ((Skeleton.pin o maps).run (faultyPin K.faults) s.files).1 = .ok () ∧
      Stopped K ws s.toTraffic t.toTraffic)

/-- The object outlives the body: what the body has left pinned is unpinned now. -/
theorem Ends.release {e : RunEnd} {v : Monitor}
    (hpin : (Skeleton.pin self maps).run (faultyPin K.faults) s.files = (.ok (), t.files))
    (ht : t = { s with files := t.files }) (h : Ends K maps ws t e v) :
    Ensures (monitorSys K) (fun _ => Destroys K maps ws self s e) (Skeleton.release maps e) v := by
  have hrun : ((Skeleton.pin self maps >>= Skeleton.destroy maps).run (faultyPin K.faults)
      s.files).2 = ((Skeleton.unpin maps).run (faultyPin K.faults) t.files).2 := by
    rw [run_bind, hpin]
    rfl
  obtain ⟨hfds, hobjects, hfiles, hcause⟩ := h
  rw [ht] at hfds hobjects hcause
  have hobj : v.objects - 1 = s.objects - 1 := by rw [hobjects]
  have hcode : (v.Refused e.code ∧ v.toTraffic = s.toTraffic) ∨ (e.code = 0 ∧
      ((Skeleton.pin self maps).run (faultyPin K.faults) s.files).1 = .ok () ∧
      Stopped K ws s.toTraffic v.toTraffic) :=
    hcause.imp (fun hc => hc.2) (fun hc => ⟨by rw [hc.1], by rw [hpin], hc.2⟩)
  unfold Skeleton.release
  split_ifs with hpinned
  · rw [if_pos hpinned] at hfiles
    apply (ensures_pinRequests (K := K) (Skeleton.unpin maps) v).bind
    rintro _ w ⟨hunpin, hw⟩
    rw [hfiles] at hunpin
    rw [hw]
    exact ⟨hfds, hobj, by rw [hrun, hunpin]; rfl, hcode⟩
  · rw [if_neg hpinned] at hfiles
    exact ⟨hfds, hobj, hfiles.trans hrun.symm, hcode⟩

/-- A program that waits is installed. -/
structure Installs (K : Kernel) (maps : List Text) (ws : List Wakeup) (o : OwnerState)
    (s t : Monitor) : Prop where
  waits : Waits K ws { s with files := t.files } t
  pinned : (Skeleton.pin o maps).run (faultyPin K.faults) s.files = (.ok (), t.files)

theorem run_runLoaded (ifIndex : ℕ) (xdpMode : Text) (s : Monitor) :
    Ensures (monitorSys K)
      (Outcome (fun t => Installs K maps ws self s t ∧ Linked ifIndex xdpMode t)
        (Destroys K maps ws self s))
      (runLoaded maps ws self ifIndex xdpMode) s := by
  refine Ensures.owning ?_
  apply (ensures_pinRequests (K := K) (Skeleton.pin self maps) s).bind
  rintro r t ⟨hpin, ht⟩
  cases r with
  | error e =>
    rw [ht]
    refine ⟨rfl, rfl, ?_, .inl ⟨Monitor.refused_69 _, rfl⟩⟩
    rw [run_bind, hpin]
    rfl
  | ok u =>
    refine (run_runAttached (K := K) ifIndex xdpMode t).mono fun r u hr => ?_
    cases r with
    | none =>
      obtain ⟨hw, hlink⟩ := hr
      rw [ht] at hw
      have hfiles : u.files = t.files := hw.files
      exact ⟨⟨hfiles ▸ hw, hfiles ▸ hpin⟩, hlink⟩
    | some e => exact Ends.release hpin ht hr

/-! ### The exits -/

/-- No event has come through the process. -/
structure Silent (t : Monitor) : Prop where
  ring : t.ring = .new
  maps : t.maps = .empty

/-- No live owner is there whose identity can be read. -/
def Faults.Unowned (F : Faults) (s : Files) : Prop :=
  ∀ p, s.Names p → ownerAlive s.procStat p = true → ¬ F.ReadsOwner p

/-- Why the command has returned with a code. -/
inductive Cause (K : Kernel) (globals : GlobalOptions) (ws : List Wakeup) (args : List Text)
    (s t : Monitor) : ℕ → Prop
  | usage : (∀ ifName, args ≠ [ifName]) → Silent t → Cause K globals ws args s t 64
  | noInterface {ifName : Text} : args = [ifName] → K.ifNametoindex ifName = 0 → Silent t →
      Cause K globals ws args s t 65
  | refused {code : ℕ} : t.Refused code → Silent t → Cause K globals ws args s t code
  | stopped : K.faults.Unowned s.files.2 → Stopped K ws (.loaded globals.sampleN) t.toTraffic →
      Cause K globals ws args s t 0

/-- What a command leaves that has returned. -/
structure Returned (K : Kernel) (globals : GlobalOptions) (ws : List Wakeup) (o : OwnerState)
    (args : List Text) (s : Monitor) (code : ℕ) (t : Monitor) : Prop where
  fds : t.fds = s.fds
  objects : t.objects = s.objects
  files : LeavesNothing K.faults o s.files.2 t.files.2
  owner : SameOwner s.files.2 t.files.2
  procStat : t.files.2.procStat = s.files.2.procStat
  cause : Cause K globals ws args s t code

/-- What a command has set up that waits. -/
structure Watching (K : Kernel) (maps : List Text) (globals : GlobalOptions) (ws : List Wakeup)
    (o : OwnerState) (args : List Text) (s t : Monitor) : Prop where
  unowned : K.faults.Unowned s.files.2
  linked : ∃ ifName, args = [ifName] ∧ Linked (K.ifNametoindex ifName) globals.xdpMode t
  keeps : ∀ fd d, s.fds.get? fd = some d → t.fds.get? fd = some d
  objects : t.objects = s.objects + 1
  held : t.files.2.Held maps o
  owner : t.files.2.ownerPid = .text (ownerLine o)
  procStat : t.files.2.procStat = s.files.2.procStat
  served : Served K ws (.loaded globals.sampleN) t.toTraffic

theorem LeavesNothing.refl (F : Faults) {s : Files} (hself : ownerAlive s.procStat self = true) :
    LeavesNothing F self s s :=
  ⟨fun _ _ _ _ => rfl, fun _ => id, fun h => ⟨h, self, h, hself⟩, id⟩

section Start

variable {globals : GlobalOptions} {fds : Table ℕ Descriptor} {files : Files}

theorem unowned_of_pin_ok {F : Faults}
    (h : ((Skeleton.pin self maps).run (faultyPin F) ([], files)).1 = .ok ()) :
    F.Unowned files := by
  intro p hnames halive hread
  have hlive : Ensures (faultyPin F) (fun r σ => σ.2 = files ∧ ∃ e, r = .error e)
      (Skeleton.pin self maps) ([], files) := run_pin_live hnames halive hread
  obtain ⟨-, e, he⟩ := hlive
  cases he.symm.trans h

theorem Installs.watching {n : List (Option ℕ)} {ifName : Text}
    (hself : ownerAlive files.procStat self = true)
    (h : Installs K maps ws self ⟨.loaded globals.sampleN, n, fds, 1, ([], files)⟩ t)
    (hlink : Linked (K.ifNametoindex ifName) globals.xdpMode t) :
    Watching K maps globals ws self [ifName] (.start fds files) t := by
  obtain ⟨hw, hpin⟩ := h
  have hinst : Installed files self maps t.files := by
    have hok := run_pin_ok K.faults maps [] hself
    rw [Ensures, hpin] at hok
    exact hok rfl
  have hproc := ensures_procStat (F := K.faults) (Skeleton.pin self maps) ([], files)
  rw [Ensures, hpin] at hproc
  have hfree : K.faults.Unowned files := unowned_of_pin_ok (congrArg Prod.fst hpin)
  exact ⟨hfree, ⟨ifName, rfl, hlink⟩, hw.keeps, hw.objects, hinst.held, hinst.line, hproc,
    hw.served⟩

theorem Destroys.returned {n : List (Option ℕ)} {e : RunEnd}
    (hself : ownerAlive files.procStat self = true) (args : List Text)
    (h : Destroys K maps ws self ⟨.loaded globals.sampleN, n, fds, 1, ([], files)⟩ e t) :
    Returned K globals ws self args (.start fds files) e.code t := by
  obtain ⟨hfds, hobjects, hfiles, hcause⟩ := h
  refine ⟨hfds, hobjects, ?_, ?_, ?_, ?_⟩
  · rw [hfiles]
    exact run_destroy_leaves_nothing K.faults maps hself
  · rw [hfiles]
    exact run_destroy_sameOwner K.faults maps hself
  · rw [hfiles]
    exact ensures_procStat _ _
  · rcases hcause with ⟨hcode, htraffic⟩ | ⟨hcode, hpin, hstop⟩
    · exact .refused hcode ⟨congrArg Traffic.ring htraffic, congrArg Traffic.maps htraffic⟩
    · rw [hcode]
      exact .stopped (unowned_of_pin_ok hpin) hstop

/-- A command that has done nothing yet. -/
theorem returned_of_sameHold {args : List Text} {code : ℕ}
    (hself : ownerAlive files.procStat self = true) (h : SameHold (.start fds files) t)
    (hcause : Cause K globals ws args (.start fds files) t code) :
    Returned K globals ws self args (.start fds files) code t := by
  obtain ⟨hfds, hobjects, hfiles⟩ := h
  have hsame : t.files.2 = files := congrArg Prod.snd hfiles
  exact ⟨hfds, hobjects, by rw [hsame]; exact .refl _ hself, .inl (by rw [hsame]; rfl),
    by rw [hsame]; rfl, hcause⟩

variable (K maps ws) in
theorem run_runIndex (globals : GlobalOptions) {ifName : Text} {ifIndex : ℕ}
    (hindex : K.ifNametoindex ifName = ifIndex) (hself : ownerAlive files.procStat self = true) :
    Ensures (monitorSys K)
      (Outcome (Watching K maps globals ws self [ifName] (.start fds files))
        (Returned K globals ws self [ifName] (.start fds files)))
      (runIndex maps ws self globals ifIndex) (.start fds files) := by
  unfold runIndex
  split_ifs with hzero
  · exact returned_of_sameHold hself (.refl _) (.noInterface rfl (hindex.trans hzero) ⟨rfl, rfl⟩)
  · apply (run_openAndLoad (K := K) globals.sampleN _).bind
    rintro r t ht
    cases r with
    | error err =>
      obtain ⟨hhold, hring, hmaps, hdenied⟩ := ht
      exact returned_of_sameHold hself hhold
        (.refused (Monitor.refused_exitCode hdenied) ⟨hring, hmaps rfl⟩)
    | ok u =>
      obtain ⟨n, rfl⟩ := ht
      apply (run_runLoaded (K := K) ifIndex globals.xdpMode _).bind
      rintro r u hr
      cases r with
      | none => exact Installs.watching hself hr.1 (hindex ▸ hr.2)
      | some e => exact Destroys.returned hself _ hr

variable (K maps ws fds) in
/-- The command from its first call. -/
theorem run_cmdRun (globals : GlobalOptions) (args : List Text)
    (hself : ownerAlive files.procStat self = true) :
    Ensures (monitorSys K)
      (Outcome (Watching K maps globals ws self args (.start fds files))
        (Returned K globals ws self args (.start fds files)))
      (cmdRun maps ws self globals args) (.start fds files) := by
  unfold cmdRun
  split
  · exact run_runIndex K ws maps globals rfl hself
  · next hargs =>
    exact returned_of_sameHold hself (.refl _) (.usage (fun n hn => hargs n hn) ⟨rfl, rfl⟩)

/-- A command that returns has closed every descriptor, destroyed its object, and left nothing of
its own in the files, as long as the removals of its pins and of its owner file succeed. -/
theorem run_leaves_nothing {args : List Text} {code : ℕ}
    (hself : ownerAlive files.procStat self = true)
    (hrun : (cmdRun maps ws self globals args).run (monitorSys K) (.start fds files) =
      (some code, t)) :
    Returned K globals ws self args (.start fds files) code t := by
  have h := run_cmdRun K ws maps fds globals args hself
  rw [Ensures, hrun] at h
  exact h

/-- A command that waits has its program on the interface in a mode that was asked for, its maps
pinned, and itself in the owner file; its maps are what the packets so far have made of them. -/
theorem run_watches {args : List Text} (hself : ownerAlive files.procStat self = true)
    (hrun : (cmdRun maps ws self globals args).run (monitorSys K) (.start fds files) = (none, t)) :
    Watching K maps globals ws self args (.start fds files) t := by
  have h := run_cmdRun K ws maps fds globals args hself
  rw [Ensures, hrun] at h
  exact h

end Start

def Faults.none : Faults := ⟨fun _ _ => false, fun _ _ => .other, 0, fun _ _ _ => rfl⟩

/-- A kernel whose calls do not fail. -/
def Kernel.steady : Kernel where
  errno := fun _ => none
  loadResult := fun _ => 0
  ifNametoindex := fun _ => 1
  alloc := fun t => t.keys.sum + 1
  alloc_fresh := fun t h => by
    have := List.single_le_sum (l := t.keys) (by simp) _ h
    omega
  faults := .none
  consumer := RingBuf.consumeAll

/-- A run that `SIGINT` ends. -/
theorem run_leaves_nothing_sigint : ∃ t,
    (cmdRun ["events".toList] [⟨[], [2], .ok [2]⟩] ⟨7, 5⟩ {} ["eth0".toList]).run
      (monitorSys .steady) (.start .empty noPins) = (some 0, t) ∧
    Returned .steady {} [⟨[], [2], .ok [2]⟩] ⟨7, 5⟩ ["eth0".toList] (.start .empty noPins) 0 t := by
  obtain ⟨t, hrun⟩ : ∃ t,
      (cmdRun ["events".toList] [⟨[], [2], .ok [2]⟩] ⟨7, 5⟩ {} ["eth0".toList]).run
        (monitorSys .steady) (.start .empty noPins) = (some 0, t) := ⟨_, rfl⟩
  exact ⟨t, hrun, run_leaves_nothing (by decide) hrun⟩

/-- A run that waits after a packet and a drain. -/
theorem run_watches_packet : ∃ t,
    (cmdRun ["events".toList] [⟨[⟨bareIpv4 1, ⟨1, 1, 0, false, []⟩, .empty⟩], [], .ok [8]⟩] ⟨7, 5⟩ {}
      ["eth0".toList]).run (monitorSys .steady) (.start .empty noPins) = (none, t) ∧
    Watching .steady ["events".toList] {}
      [⟨[⟨bareIpv4 1, ⟨1, 1, 0, false, []⟩, .empty⟩], [], .ok [8]⟩] ⟨7, 5⟩ ["eth0".toList]
      (.start .empty noPins) t := by
  obtain ⟨t, hrun⟩ : ∃ t, (cmdRun ["events".toList]
      [⟨[⟨bareIpv4 1, ⟨1, 1, 0, false, []⟩, .empty⟩], [], .ok [8]⟩] ⟨7, 5⟩ {} ["eth0".toList]).run
      (monitorSys .steady) (.start .empty noPins) = (none, t) := ⟨_, rfl⟩
  exact ⟨t, hrun, run_watches (by decide) hrun⟩

end KWatch
