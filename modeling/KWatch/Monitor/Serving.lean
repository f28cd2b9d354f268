import KWatch.Monitor.Command
import KWatch.Ring.Delivery
import KWatch.Xdp.Counters

/-! # The loop of a monitoring process

While the process waits, its maps and its reader take the steps of the event pipeline: a packet for
every arrival and a drain for every time the ring is ready. The loop ends with a termination signal
or with an error of `epoll_wait`, and leaves everything else alone.
-/

namespace KWatch

open Prog

variable {K : Kernel} {s t u : Monitor} {ws ws' : List Wakeup}

theorem arrival?_packets (as : List Arrival) :
    (as.map PipelineStep.packet).filterMap PipelineStep.arrival? = as := by
  induction as with
  | nil => rfl
  | cons a as ih => simpa [PipelineStep.arrival?] using ih

/-- What the wakeups have done to what comes through the process. -/
structure Served (K : Kernel) (ws : List Wakeup) (x y : Traffic) : Prop where
  config : y.config = x.config
  signals : ∀ sig ∈ y.signals, sig ∈ x.signals ++ ws.flatMap Wakeup.signals
  pipeline : ∃ steps, steps.filterMap PipelineStep.arrival? = ws.flatMap Wakeup.arrivals ∧
    ∀ d, ∃ d', Run.exec (Pipeline.step x.config K.consumer) ⟨x.maps, x.ring, d⟩ steps =
      some ⟨y.maps, y.ring, d'⟩

theorem Served.refl (K : Kernel) (x : Traffic) : Served K [] x x :=
  ⟨rfl, fun sig hsig => by simpa using hsig, [], rfl, fun d => ⟨d, rfl⟩⟩

theorem Served.trans {x y z : Traffic} (hxy : Served K ws x y) (hyz : Served K ws' y z) :
    Served K (ws ++ ws') x z := by
  refine ⟨hyz.config.trans hxy.config, fun sig hsig => ?_, ?_⟩
  · rcases List.mem_append.mp (hyz.signals sig hsig) with h | h
    · have hx := hxy.signals sig h
      simp only [List.flatMap_append, List.mem_append] at hx ⊢
      exact hx.imp_right .inl
    · simp only [List.flatMap_append, List.mem_append]
      exact .inr (.inr h)
  · obtain ⟨steps, harr, hrun⟩ := hxy.pipeline
    obtain ⟨steps', harr', hrun'⟩ := hyz.pipeline
    refine ⟨steps ++ steps', by rw [List.filterMap_append, harr, harr', List.flatMap_append],
      fun d => ?_⟩
    obtain ⟨d₁, h₁⟩ := hrun d
    obtain ⟨d₂, h₂⟩ := hrun' d₁
    rw [hxy.config] at h₂
    exact ⟨d₂, Run.exec_trans h₁ h₂⟩

/-! ### One call of the loop -/

/-- The descriptors, the object and the files are left alone. -/
structure SameHold (s t : Monitor) : Prop where
  fds : t.fds = s.fds
  objects : t.objects = s.objects
  files : t.files = s.files

theorem SameHold.refl (s : Monitor) : SameHold s s := ⟨rfl, rfl, rfl⟩

theorem SameHold.trans (hst : SameHold s t) (htu : SameHold t u) : SameHold s u :=
  ⟨htu.fds.trans hst.fds, htu.objects.trans hst.objects, htu.files.trans hst.files⟩

/-- The packets of an attached program are steps of the pipeline. -/
theorem exec_packets (cfg : KwatchRuntimeConfig) (consumer : RingBuf.Consumer) (r : RingBuf)
    (as : List Arrival) (m : Maps) (d : ℕ) : ∃ d',
      Run.exec (Pipeline.step cfg consumer) ⟨m, r, d⟩ (as.map .packet) =
        some ⟨(xdpRun cfg m as).getD m, r, d'⟩ := by
  induction as generalizing m d with
  | nil => exact ⟨d, rfl⟩
  | cons a as ih =>
    let m₁ := (runView cfg a.helpers a.frame { m with blacklist := a.blacklist }
      (frameView a.frame)).2
    obtain ⟨d', h⟩ := ih m₁ (if (a.decision cfg m).isSome then d + 1 else d)
    obtain ⟨m', hm', -⟩ := xdpRun_pktCounts cfg m₁ as
    refine ⟨d', ?_⟩
    rw [xdpRun_cons, hm', Option.getD_some, List.map_cons, Run.exec_cons, Pipeline.step,
      xdpKwatchProg_eq]
    rwa [hm', Option.getD_some] at h

theorem served_receive (hs : s.attached = true) (w : Wakeup) :
    Served K [w] s.toTraffic (s.receive w).toTraffic := by
  refine ⟨rfl, fun sig hsig => by simpa [Monitor.receive] using hsig,
    w.arrivals.map .packet, by rw [arrival?_packets]; simp, fun d => ?_⟩
  obtain ⟨d', h⟩ := exec_packets s.config K.consumer s.ring w.arrivals s.maps d
  exact ⟨d', by simpa [Monitor.receive, hs] using h⟩

/-- What the loop does to a process. -/
structure Handled (K : Kernel) (ws : List Wakeup) (s t : Monitor) : Prop where
  served : Served K ws s.toTraffic t.toTraffic
  hold : SameHold s t

theorem Handled.refl (K : Kernel) (s : Monitor) : Handled K [] s s := ⟨.refl K _, .refl s⟩

theorem Handled.trans (hst : Handled K ws s t) (htu : Handled K ws' t u) :
    Handled K (ws ++ ws') s u := ⟨hst.served.trans htu.served, hst.hold.trans htu.hold⟩

theorem handled_receive (hs : s.attached = true) (w : Wakeup) : Handled K [w] s (s.receive w) :=
  ⟨served_receive hs w, rfl, rfl, rfl⟩

/-- A termination signal is among the signals. -/
def Terminated (signals : List ℤ) : Prop := ∃ sig ∈ signals, isTermination (some sig) = true

theorem handled_readSignal (fd : ℕ) (s : Monitor) : Handled K [] s (s.readSignal fd).2 ∧
    (isTermination (s.readSignal fd).1 = true → Terminated s.signals) := by
  unfold Monitor.readSignal
  split
  · next sig signals _ hsig =>
    refine ⟨⟨⟨rfl, fun x hx => ?_, [], rfl, fun d => ⟨d, rfl⟩⟩, rfl, rfl, rfl⟩, fun h => ?_⟩
    · simp only at hx
      simp [hsig, hx]
    · exact ⟨sig, by simp [hsig], h⟩
  · exact ⟨.refl K s, by rintro ⟨⟩⟩

theorem handled_consume (s : Monitor) :
    Handled K [] s (monitorSys K (.ringBufferConsume 1024) s).2 :=
  ⟨⟨rfl, fun sig hsig => by simpa [monitorSys] using hsig,
    [.consume 1024 (by decide)], rfl, fun d => ⟨d, rfl⟩⟩, rfl, rfl, rfl⟩

/-! ### The loop -/

theorem Handled.terminated (h : Handled K [] s t) (ht : Terminated t.signals) :
    Terminated s.signals := by
  obtain ⟨sig, hsig, hterm⟩ := ht
  exact ⟨sig, by simpa using h.served.signals sig hsig, hterm⟩

theorem run_handleReady (src : Sources) (fds : List ℕ) (s : Monitor) :
    Ensures (monitorSys K) (fun stop t => Handled K [] s t ∧ (stop = true → Terminated s.signals))
      (handleReady src fds) s := by
  induction fds generalizing s with
  | nil => exact ⟨.refl K s, by rintro ⟨⟩⟩
  | cons fd fds ih =>
    have hgo : ∀ t, Handled K [] s t → Ensures (monitorSys K) (fun stop t =>
        Handled K [] s t ∧ (stop = true → Terminated s.signals)) (handleReady src fds) t :=
      fun t hst => (ih t).mono fun stop u ⟨htu, hstop⟩ =>
        ⟨hst.trans htu, fun h => hst.terminated (hstop h)⟩
    unfold handleReady
    split_ifs
    · obtain ⟨hread, hterm⟩ := handled_readSignal (K := K) src.sigs s
      simp only [request, step_bind, ensures_call]
      split
      · next h => exact ⟨hread, fun _ => hterm h⟩
      · exact hgo _ hread
    · exact hgo _ (handled_consume s)
    · exact hgo _ (.refl K s)
    · exact hgo _ (.refl K s)

/-- The loop was left at a wakeup: with an error, or with a termination signal that had come. -/
def Stopped (K : Kernel) (ws : List Wakeup) (x y : Traffic) : Prop :=
  ∃ before w after, ws = before ++ w :: after ∧ Served K (before ++ [w]) x y ∧
    ((∃ e, w.result = .error e ∧ e ≠ 4) ∨
      Terminated (x.signals ++ (before ++ [w]).flatMap Wakeup.signals))

theorem Stopped.cons {w : Wakeup} {x y z : Traffic} (hxy : Served K [w] x y)
    (h : Stopped K ws y z) : Stopped K (w :: ws) x z := by
  obtain ⟨before, w', after, rfl, hyz, hcause⟩ := h
  refine ⟨w :: before, w', after, rfl, hxy.trans hyz, hcause.imp_right ?_⟩
  rintro ⟨sig, hsig, hterm⟩
  refine ⟨sig, ?_, hterm⟩
  rcases List.mem_append.mp hsig with h | h
  · have hx := hxy.signals sig h
    simp only [List.flatMap_cons, List.flatMap_nil, List.append_nil, List.mem_append,
      List.cons_append] at hx ⊢
    exact hx.imp_right .inl
  · simp only [List.cons_append, List.flatMap_cons, List.mem_append]
    exact .inr (.inr h)

theorem SameHold.attached (h : SameHold s t) (hs : s.attached = true) : t.attached = true := by
  rwa [Monitor.attached, h.fds]

/-- The loop of an attached program waits for more, or was left at one of the wakeups. -/
theorem run_waitLoop (src : Sources) (ep : ℕ) (ws : List Wakeup) (s : Monitor)
    (hs : s.attached = true) :
    Ensures (monitorSys K) (Outcome (Handled K ws s) fun _ t =>
        Stopped K ws s.toTraffic t.toTraffic ∧ SameHold s t) (waitLoop src ep ws) s := by
  induction ws generalizing s with
  | nil => exact Handled.refl K s
  | cons w ws ih =>
    have hgo : ∀ t, Handled K [w] s t → Ensures (monitorSys K)
        (Outcome (Handled K (w :: ws) s) fun _ u =>
          Stopped K (w :: ws) s.toTraffic u.toTraffic ∧ SameHold s u) (waitLoop src ep ws) t :=
      fun t hst => (ih t (hst.hold.attached hs)).mono fun r u hr =>
        hr.mono (fun _ htu => hst.trans htu)
          (fun _ _ h => ⟨h.1.cons hst.served, hst.hold.trans h.2⟩)
    have hrec := handled_receive (K := K) hs w
    unfold waitLoop
    simp only [request, step_bind, ensures_call]
    cases hw : w.result with
    | error e =>
      simp only [monitorSys, hw, Except.map]
      split_ifs with he
      · exact hgo _ hrec
      · exact ⟨⟨[], w, ws, rfl, hrec.served, .inl ⟨e, hw, he⟩⟩, hrec.hold⟩
    | ok fds =>
      simp only [monitorSys, hw, Except.map]
      apply (run_handleReady (K := K) src _ (s.receive w)).bind
      rintro stop t ⟨ht, hstop⟩
      have hst : Handled K [w] s t := hrec.trans ht
      cases stop with
      | false => exact hgo t hst
      | true =>
        have hterm := hstop rfl
        exact ⟨⟨[], w, ws, rfl, hst.served, .inr (by simpa [Monitor.receive] using hterm)⟩,
          hst.hold⟩

end KWatch
