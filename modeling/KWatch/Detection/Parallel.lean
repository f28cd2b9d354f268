import KWatch.Detection.Sensitivity
import KWatch.Tracker.Aggregation
import KWatch.Xdp.Affinity

/-! # A flood on several processors

The packets of a source may arrive on any number of processors, as long as each flow stays on one.
However the processors take turns, a complete snapshot within the first window flags a source
exactly when its SYN packets on all of them together exceed its ACK packets by the threshold.
-/

namespace KWatch

open AcceptedPacket

/-- The frame is a packet of a source with a flag. -/
def sends (flag : AcceptedPacket → Bool) (b : LpmTrie) (ip : UInt32) (f : Frame) : Bool :=
  (Arrival.accepted ⟨f, ⟨0, 0, 0, false, []⟩, b⟩).any fun p => flag p && p.key.srcIp == ip

/-! ### Flows within one window -/

/-- Exact entries that were never restarted. -/
structure FlowsFirst (cfg : KwatchRuntimeConfig) (ps : List AcceptedPacket)
    (flows : Table KwatchFlowKey KwatchFlowStats) : Prop where
  exact : FlowsExact cfg ps flows
  first : ∀ k s, flows.get? k = some s → ∀ q ∈ ps, q.key = k → s.firstSeenNs ≤ q.timeNs

theorem FlowsFirst.congr {cfg : KwatchRuntimeConfig} {ps : List AcceptedPacket}
    {flows flows' : Table KwatchFlowKey KwatchFlowStats} (h : FlowsFirst cfg ps flows)
    (heq : ∀ key, flows'.get? key = flows.get? key) : FlowsFirst cfg ps flows' := by
  refine ⟨⟨fun q hq => ?_, fun k s hs => ?_⟩, fun k s hs => ?_⟩
  · rw [heq]
    exact h.exact.known q hq
  · exact h.exact.entry k s (heq k ▸ hs)
  · exact h.first k s (heq k ▸ hs)

theorem FlowsFirst.account {cfg : KwatchRuntimeConfig} {ps : List AcceptedPacket}
    {p : AcceptedPacket} {flows : Table KwatchFlowKey KwatchFlowStats}
    (hx : FlowsFirst cfg ps flows) {h : Helpers} (hp : p.timeNs = h.nowNs) (hv : h.lruVictims = [])
    (hclock : ∀ q ∈ ps, q.timeNs ≤ p.timeNs)
    (hspan : ∀ q ∈ ps, p.timeNs.toNat ≤ q.timeNs.toNat + cfg.synWindowNs.toNat) :
    FlowsFirst cfg (ps ++ [p]) (accountFlow cfg h p.key p.tcpFlags flows).1 := by
  refine ⟨hx.exact.account hp hv hclock, fun k s hs q hq hk => ?_⟩
  rcases accountFlow_get?_cases hs with ⟨rfl, hnone, rfl⟩ | ⟨rfl, s₀, hs₀, rfl⟩ | ⟨hne, hs⟩
  · rcases List.mem_append.mp hq with hq | hq
    · obtain ⟨s, hs⟩ := hx.exact.known q hq
      rw [hk, hnone] at hs
      cases hs
    · rw [List.mem_singleton.mp hq, hp]
      exact UInt64.le_refl _
  · obtain ⟨q₀, hq₀, hstart⟩ := (hx.exact.entry _ s₀ hs₀).started
    rcases restartWindow_cases cfg h.nowNs s₀ with ⟨-, -, hlt, hgap⟩ | ⟨hr, -⟩
    · have hgap := UInt64.lt_iff_toNat_lt.mp hgap
      rw [UInt64.toNat_sub_of_le _ _ (UInt64.le_of_lt hlt), ← hp, hstart] at hgap
      have := hspan q₀ hq₀
      omega
    · have hfirst : (updateFlowStats cfg h.nowNs p.tcpFlags s₀).firstSeenNs = s₀.firstSeenNs := by
        simp [updateFlowStats, hr]
      rw [hfirst]
      rcases List.mem_append.mp hq with hq | hq
      · exact hx.first _ s₀ hs₀ q hq hk
      · rw [List.mem_singleton.mp hq, hstart]
        exact hclock q₀ hq₀
  · rcases List.mem_append.mp hq with hq | hq
    · exact hx.first k s hs q hq hk
    · rw [List.mem_singleton.mp hq] at hk
      exact absurd hk.symm hne

theorem xdpRun_append (cfg : KwatchRuntimeConfig) (m : Maps) (as : List Arrival) (a : Arrival) :
    xdpRun cfg m (as ++ [a]) = (xdpRun cfg m as).map fun m' => (runView cfg a.helpers a.frame
      { m' with blacklist := a.blacklist } (frameView a.frame)).2 := by
  simp [xdpRun, xdpKwatchProg_eq, List.foldlM_append, Option.map_eq_bind]

/-- Arrivals in the order of time, within a window. -/
def WithinWindow (cfg : KwatchRuntimeConfig) (as : List Arrival) : Prop :=
  as.Pairwise fun a a' => a.helpers.nowNs ≤ a'.helpers.nowNs ∧
    a'.helpers.nowNs.toNat ≤ a.helpers.nowNs.toNat + cfg.synWindowNs.toNat

theorem flowsFirst_xdpRun {cfg : KwatchRuntimeConfig} {m m' : Maps} (hm : m.flowState = .empty)
    {as : List Arrival} (hlru : ∀ a ∈ as, a.helpers.lruVictims = []) (hw : WithinWindow cfg as)
    (hrun : xdpRun cfg m as = some m') :
    FlowsFirst cfg (as.filterMap Arrival.accepted) m'.flowState := by
  induction as using List.reverseRecOn generalizing m' with
  | nil =>
    cases hrun
    refine ⟨⟨?_, ?_⟩, ?_⟩ <;> intro _ _ <;> simp_all
  | append_singleton as a ih =>
    rw [xdpRun_append, Option.map_eq_some_iff] at hrun
    obtain ⟨m₁, hm₁, rfl⟩ := hrun
    obtain ⟨hw, -, hlast⟩ := List.pairwise_append.mp hw
    have ih := ih (fun a ha => hlru a (List.mem_append_left _ ha)) hw hm₁
    rw [runView_flowState, List.filterMap_append]
    have hacc : a.accepted = (acceptedPacket a.blacklist (frameView a.frame)).map fun ip =>
      ⟨a.helpers.nowNs, keyOf a.frame ip, (flowFieldsOf a.frame ip).tcpFlags⟩ := rfl
    cases hv : acceptedPacket a.blacklist (frameView a.frame) with
    | none => simpa [hacc, hv] using ih
    | some ip =>
      have hold : ∀ q ∈ as.filterMap Arrival.accepted, ∃ a₀ ∈ as, q.timeNs = a₀.helpers.nowNs := by
        intro q hq
        obtain ⟨a₀, ha₀, hq⟩ := List.mem_filterMap.mp hq
        exact ⟨a₀, ha₀, Arrival.timeNs_of_accepted hq⟩
      have hone : [a].filterMap Arrival.accepted =
          [⟨a.helpers.nowNs, keyOf a.frame ip, (flowFieldsOf a.frame ip).tcpFlags⟩] := by
        simp [hacc, hv]
      rw [hone]
      refine ih.account rfl (hlru a (by simp)) (fun q hq => ?_) fun q hq => ?_
      · obtain ⟨a₀, ha₀, he⟩ := hold q hq
        rw [he]
        exact (hlast a₀ ha₀ a (by simp)).1
      · obtain ⟨a₀, ha₀, he⟩ := hold q hq
        rw [he]
        exact (hlast a₀ ha₀ a (by simp)).2

/-! ### Detection -/

/-- Whether a packet has a flag and a source does not depend on when it arrives. -/
theorem accepted_arrivalAt_any (env : ℕ → Helpers) {b : LpmTrie} {ip : UInt32} (x : ℕ × Frame)
    {flag : AcceptedPacket → Bool} (hflag : ∀ p q, p.tcpFlags = q.tcpFlags → flag p = flag q) :
    ((arrivalAt env b x).accepted.any fun p => flag p && p.key.srcIp == ip) =
      sends flag b ip x.2 := by
  simp only [sends, Arrival.accepted, arrivalAt]
  cases acceptedPacket b (frameView x.2) with
  | none => rfl
  | some v =>
    simp only [Option.map_some, Option.any_some]
    congr 1
    exact hflag _ _ rfl

theorem countP_accepted {α : Type} {f : α → Option AcceptedPacket} (p : AcceptedPacket → Bool)
    (l : List α) : (l.filterMap f).countP p = l.countP fun x => (f x).any p := by
  induction l with
  | nil => rfl
  | cons x l ih => cases hx : f x <;> simp [hx, List.countP_cons, ih]

/-- The packets of a source with a flag that were counted in windows that began recently. -/
def countedFlags (flag : AcceptedPacket → Bool) (flows : Table KwatchFlowKey KwatchFlowStats)
    (steps : List Step) (ip window : UInt32) (now : UInt64) : ℕ :=
  (accepted steps).countP fun p =>
    flag p && p.key.srcIp == ip && inCurrentWindow flows window now p

section Snapshot

variable {cfg : KwatchRuntimeConfig} {flows : Table KwatchFlowKey KwatchFlowStats}
  {entries : List FlowMapEntry} {steps : List Step} {ip window : UInt32} {now : UInt64}
  {flag : AcceptedPacket → Bool}

theorem accepted_protocol {p : AcceptedPacket} (hp : p ∈ accepted steps) (hf : p.tcpFlags ≠ 0) :
    p.key.protocol = IPPROTO_TCP := by
  obtain ⟨st, -, ha⟩ := List.mem_filterMap.mp hp
  cases st with
  | packet a =>
    obtain ⟨F, -, -, rfl⟩ := accepted_eq_some_iff.mp ha
    by_contra hne
    exact hf (if_neg fun h => hne h.1)
  | evict key => cases ha
  | call c => cases ha

variable (ip window now) in
/-- The counts of the live entries add up to the counted packets. -/
theorem sum_flags_eq (hflag : ∀ p, flag p = true → p.tcpFlags ≠ 0)
    (hsnap : CompleteSnapshot flows entries) (hx : FlowsExact cfg (accepted steps) flows)
    (hpos : ∀ q ∈ accepted steps, 0 < q.timeNs) :
    ((FlowTracker.liveEntries (window.toUInt64 * 1000000000) now entries ip).map fun e =>
      countSince flag (accepted steps) e.key e.stats.firstSeenNs).sum =
      countedFlags flag flows steps ip window now := by
  have hkeys : ((FlowTracker.liveEntries (window.toUInt64 * 1000000000) now entries ip).map
      FlowMapEntry.key).Nodup := hsnap.nodup.sublist (List.filter_sublist.map _)
  refine (Sums.sum_countP AcceptedPacket.key FlowMapEntry.key _ hkeys fun e p hp => ?_).trans ?_
  · simp only [since, Bool.and_eq_true, beq_iff_eq] at hp
    exact hp.2.1
  · apply List.countP_congr
    intro p hp
    obtain ⟨s, hs⟩ := hx.known p hp
    simp only [List.any_eq_true, mem_liveEntries_iff ip window now hsnap hx hpos, since,
      Bool.and_eq_true, beq_iff_eq, decide_eq_true_eq, inCurrentWindow, hs]
    constructor
    · rintro ⟨e, ⟨hget, -, hip, hstart⟩, hf, hkey, htime⟩
      rw [← hkey, hs] at hget
      cases hget
      exact ⟨⟨hf, hkey ▸ hip⟩, htime, hstart⟩
    · rintro ⟨⟨hf, hip⟩, htime, hstart⟩
      exact ⟨⟨p.key, s⟩, ⟨hs, accepted_protocol hp (hflag p hf), hip, hstart⟩, hf, rfl, htime⟩

theorem isSyn_tcpFlags (p : AcceptedPacket) (h : p.isSyn = true) : p.tcpFlags ≠ 0 := by
  intro h0
  simp [isSyn, h0] at h

theorem isAck_tcpFlags (p : AcceptedPacket) (h : p.isAck = true) : p.tcpFlags ≠ 0 := by
  intro h0
  simp [isAck, h0] at h

/-- The aggregate of a source has the counted packets in 32 bits. -/
theorem aggregate_counts (hsnap : CompleteSnapshot flows entries)
    (hx : FlowsExact cfg (accepted steps) flows) (hpos : ∀ q ∈ accepted steps, 0 < q.timeNs)
    {g : FlowAggregate} (hm : FlowTracker.mergeAll (FlowTracker.liveEntries
      (window.toUInt64 * 1000000000) now entries ip) = some g) :
    g.synCount = UInt32.ofNat (countedFlags isSyn flows steps ip window now) ∧
      g.ackCount = UInt32.ofNat (countedFlags isAck flows steps ip window now) := by
  have hentry : ∀ e ∈ FlowTracker.liveEntries (window.toUInt64 * 1000000000) now entries ip,
      EntryExact cfg (accepted steps) e.key e.stats := fun e he =>
    hx.entry _ _ ((mem_liveEntries_iff ip window now hsnap hx hpos).mp he).1
  obtain ⟨hs, ha⟩ := FlowTracker.mergeAll_counts hm
  rw [hs, ha, ← sum_flags_eq ip window now isSyn_tcpFlags hsnap hx hpos,
    ← sum_flags_eq ip window now isAck_tcpFlags hsnap hx hpos, ← Sums.sum_ofNat, ← Sums.sum_ofNat]
  constructor
  · exact congrArg List.sum (List.map_congr_left fun e he => (hentry e he).syns)
  · exact congrArg List.sum (List.map_congr_left fun e he => (hentry e he).acks)

/-- A complete snapshot flags a source exactly when its SYN packets in current windows exceed its
ACK packets there by the threshold. -/
theorem flagged_iff_counted (hx : FlowsExact cfg (accepted steps) flows)
    (hpos : ∀ q ∈ accepted steps, 0 < q.timeNs) (hsnap : CompleteSnapshot flows entries)
    {t : FlowTracker} (ht : t.synWindowNs = window.toUInt64 * 1000000000)
    (hthr : 1 ≤ t.synThreshold.toNat) (hnew : ¬t.Flagged ip)
    (hsyns : countedFlags isSyn flows steps ip window now < 2 ^ 32)
    (hacks : countedFlags isAck flows steps ip window now < 2 ^ 32) :
    (t.processFlowSnapshot entries now).Flagged ip ↔ t.synThreshold.toNat ≤
      countedFlags isSyn flows steps ip window now -
        countedFlags isAck flows steps ip window now := by
  have hget := FlowTracker.processFlowSnapshot_get? entries now t ip
  rw [ht] at hget
  have hold : ∀ s, t.ipStats.get? ip = some s → s.isFlagged = false := fun s hs =>
    Bool.not_eq_true _ ▸ fun hf => hnew ⟨s, hs, hf⟩
  cases hm : FlowTracker.mergeAll
      (FlowTracker.liveEntries (window.toUInt64 * 1000000000) now entries ip) with
  | none =>
    -- without live entries nothing was counted, and a source that is not flagged stays so
    have hsum := sum_flags_eq ip window now isSyn_tcpFlags hsnap hx hpos
    rw [FlowTracker.mergeAll_eq_none_iff.mp hm, List.map_nil, List.sum_nil] at hsum
    constructor
    · rintro ⟨s, hs, hf⟩
      rw [hget, hm] at hs
      obtain ⟨s₀, hs₀, rfl⟩ := Option.map_eq_some_iff.mp hs
      rw [FlowTracker.resetStale_not_flagged (hold s₀ hs₀)] at hf
      cases hf
    · omega
  | some g =>
    obtain ⟨hs, ha⟩ := aggregate_counts hsnap hx hpos hm
    have hcase : (t.processFlowSnapshot entries now).Flagged ip ↔
        t.synThreshold ≤ FlowTracker.unmatchedSyns g.synCount g.ackCount := by
      have hfresh : ((t.ipStats.get? ip).getD {}).isFlagged = false := by
        cases h : t.ipStats.get? ip with
        | none => rfl
        | some s => exact hold s h
      rw [FlowTracker.Flagged, hget, hm]
      simp [FlowTracker.nextStats, FlowTracker.applyAggregate, hfresh]
    rw [hcase, UInt32.le_iff_toNat_le, FlowTracker.toNat_unmatchedSyns, hs, ha,
      UInt32.toNat_ofNat', UInt32.toNat_ofNat', Nat.mod_eq_of_lt hsyns, Nat.mod_eq_of_lt hacks]

end Snapshot

section Flood

variable {ι : Type} [Fintype ι] [DecidableEq ι] {env : ℕ → Helpers} {owner : KwatchFlowKey → ι}
  {frames : ι → List Frame} {b : LpmTrie} {sched : List ι} {order : List (ι × ℕ × Frame)}
  {c' : Config ι XdpCall XdpCall.Result (ℕ × Maps) Unit} {sampleN window ip : UInt32}
  {now : UInt64} {n : ℕ}

/-- The clock of a run that takes place in the window before a time. -/
structure ClockWithin (env : ℕ → Helpers) (n : ℕ) (window : UInt32) (now : UInt64) : Prop where
  mono : ∀ j k, j ≤ k → k ≤ n → (env j).nowNs ≤ (env k).nowNs
  pos : 0 < (env 0).nowNs
  last : (env n).nowNs ≤ now
  first : now.toNat ≤ (env 0).nowNs.toNat + window.toNat * 1000000000

/-- The packets of the processors as steps of the system. -/
def packetSteps (env : ℕ → Helpers) (b : LpmTrie) (order : List (ι × ℕ × Frame)) : List Step :=
  order.map fun x => .packet (arrivalAt env b x.2)

omit [Fintype ι] [DecidableEq ι] in
theorem accepted_packetSteps : accepted (packetSteps env b order) =
    order.filterMap fun x => (arrivalAt env b x.2).accepted := by
  rw [accepted, packetSteps, List.filterMap_map]
  rfl

omit [Fintype ι] [DecidableEq ι] in
theorem ClockWithin.withinWindow (hclock : ClockWithin env n window now)
    (hsorted : order.Pairwise fun x y => x.2.1 ≤ y.2.1) (hlen : ∀ x ∈ order, x.2.1 ≤ n) :
    WithinWindow (kwatchMakeRuntimeConfig sampleN window)
      (order.map fun x => arrivalAt env b x.2) := by
  rw [WithinWindow, List.pairwise_map]
  refine hsorted.imp_of_mem fun {x y} hx hy hle => ⟨hclock.mono _ _ hle (hlen y hy), ?_⟩
  have hfirst := UInt64.le_iff_toNat_le.mp (hclock.mono 0 _ (Nat.zero_le _) (hlen x hx))
  have hlast := UInt64.le_iff_toNat_le.mp (hclock.mono _ _ (hlen y hy) le_rfl)
  have hnow := UInt64.le_iff_toNat_le.mp hclock.last
  have hwin := hclock.first
  have hsec : (kwatchMakeRuntimeConfig sampleN window).synWindowNs.toNat =
      window.toNat * 1000000000 := FlowTracker.toNat_seconds window
  simp only [arrivalAt]
  omega

omit [Fintype ι] [DecidableEq ι] in
/-- Within the first window every packet of a source with a flag is counted. -/
theorem ClockWithin.countedFlags_eq {flows : Table KwatchFlowKey KwatchFlowStats}
    {cfg : KwatchRuntimeConfig} (hclock : ClockWithin env n window now)
    (hlen : ∀ x ∈ order, x.2.1 ≤ n)
    (hx : FlowsFirst cfg (accepted (packetSteps env b order)) flows)
    {flag : AcceptedPacket → Bool} (hflag : ∀ p q, p.tcpFlags = q.tcpFlags → flag p = flag q) :
    countedFlags flag flows (packetSteps env b order) ip window now =
      order.countP fun x => sends flag b ip x.2.2 := by
  have hall : countedFlags flag flows (packetSteps env b order) ip window now =
      (accepted (packetSteps env b order)).countP fun p => flag p && p.key.srcIp == ip := by
    apply List.countP_congr
    intro p hp
    obtain ⟨s, hs⟩ := hx.exact.known p hp
    obtain ⟨q, hq, hstart⟩ := (hx.exact.entry _ s hs).started
    have hfirst := hx.first _ s hs p hp rfl
    have hq0 : (env 0).nowNs ≤ q.timeNs := by
      rw [accepted_packetSteps] at hq
      obtain ⟨x, hxo, hq⟩ := List.mem_filterMap.mp hq
      rw [Arrival.timeNs_of_accepted hq]
      exact hclock.mono 0 _ (Nat.zero_le _) (hlen x hxo)
    have hcur : inCurrentWindow flows window now p = true := by
      have hq0 := UInt64.le_iff_toNat_le.mp hq0
      have hwin := hclock.first
      simp only [inCurrentWindow, hs, Bool.and_eq_true, decide_eq_true_eq]
      refine ⟨hfirst, ?_⟩
      rw [hstart]
      omega
    simp [hcur]
  rw [hall, accepted_packetSteps, countP_accepted]
  apply List.countP_congr
  intro x _
  rw [accepted_arrivalAt_any _ x.2 hflag]

omit [Fintype ι] [DecidableEq ι] in
/-- The packets behind one snapshot in the first window. -/
theorem ClockWithin.flagged_iff {flows : Table KwatchFlowKey KwatchFlowStats}
    {cfg : KwatchRuntimeConfig} (hclock : ClockWithin env n window now)
    (hlen : ∀ x ∈ order, x.2.1 ≤ n)
    (hx : FlowsFirst cfg (accepted (packetSteps env b order)) flows)
    {entries : List FlowMapEntry} (hsnap : CompleteSnapshot flows entries)
    {t : FlowTracker} (ht : t.synWindowNs = window.toUInt64 * 1000000000)
    (hthr : 1 ≤ t.synThreshold.toNat) (hnew : ¬t.Flagged ip)
    (hsyns : (order.countP fun x => sends isSyn b ip x.2.2) < 2 ^ 32)
    (hacks : (order.countP fun x => sends isAck b ip x.2.2) < 2 ^ 32) :
    (t.processFlowSnapshot entries now).Flagged ip ↔ t.synThreshold.toNat ≤
      (order.countP fun x => sends isSyn b ip x.2.2) -
        order.countP fun x => sends isAck b ip x.2.2 := by
  have hpos : ∀ q ∈ accepted (packetSteps env b order), 0 < q.timeNs := by
    intro q hq
    rw [accepted_packetSteps] at hq
    obtain ⟨x, hxo, hq⟩ := List.mem_filterMap.mp hq
    rw [Arrival.timeNs_of_accepted hq]
    exact UInt64.lt_of_lt_of_le hclock.pos (hclock.mono 0 _ (Nat.zero_le _) (hlen x hxo))
  have hsyn : countedFlags isSyn flows (packetSteps env b order) ip window now = _ :=
    hclock.countedFlags_eq hlen hx fun p q h => by simp [isSyn, h]
  have hack : countedFlags isAck flows (packetSteps env b order) ip window now = _ :=
    hclock.countedFlags_eq hlen hx fun p q h => by simp [isAck, h]
  rw [← hsyn] at hsyns
  rw [← hack] at hacks
  rw [flagged_iff_counted hx.exact hpos hsnap ht hthr hnew hsyns hacks, hsyn, hack]

/-- The packets of a source with a flag on all processors together. -/
def sentInAll (frames : ι → List Frame) (flag : AcceptedPacket → Bool) (b : LpmTrie)
    (ip : UInt32) : ℕ := ∑ i, (frames i).countP (sends flag b ip)

theorem countP_order (hframes : ∀ i, (order.filter (·.1 = i)).map (·.2.2) = frames i)
    (flag : AcceptedPacket → Bool) :
    (order.countP fun x => sends flag b ip x.2.2) = sentInAll frames flag b ip := by
  rw [sentInAll, Timeline.countP_eq_sum fun y : ℕ × Frame => sends flag b ip y.2]
  refine Finset.sum_congr rfl fun i _ => ?_
  rw [← hframes i, List.countP_map, List.countP_map]
  rfl

/-- However the processors take turns, a complete snapshot in the first window flags a source
exactly when its SYN packets on all of them together exceed its ACK packets by the threshold. -/
theorem parallel_flood_flagged (hlru : ∀ n, (env n).lruVictims = [])
    (haff : Affine owner b frames)
    (hrun : Run.exec (Config.step (xdpSysAt env)) (processInParallel
      (kwatchMakeRuntimeConfig sampleN window) frames { Maps.empty with blacklist := b }) sched =
        some c')
    (hdone : ∀ i, c'.progs i = .ret ()) (hclock : ClockWithin env sched.length window now)
    {entries : List FlowMapEntry} (hsnap : CompleteSnapshot c'.shared.2.flowState entries)
    {t : FlowTracker} (ht : t.synWindowNs = window.toUInt64 * 1000000000)
    (hthr : 1 ≤ t.synThreshold.toNat) (hnew : ¬t.Flagged ip)
    (hsyns : sentInAll frames isSyn b ip < 2 ^ 32) (hacks : sentInAll frames isAck b ip < 2 ^ 32) :
    (t.processFlowSnapshot entries now).Flagged ip ↔
      t.synThreshold.toNat ≤ sentInAll frames isSyn b ip - sentInAll frames isAck b ip := by
  obtain ⟨order, hsorted, hlen, hframes, m', hm', hflows⟩ :=
    exists_linearizes hlru haff hrun hdone
  have hx : FlowsFirst (kwatchMakeRuntimeConfig sampleN window) (accepted (packetSteps env b order))
      c'.shared.2.flowState := by
    refine FlowsFirst.congr ?_ hflows
    rw [accepted_packetSteps]
    have hfirst := flowsFirst_xdpRun rfl (fun a ha => ?_) (hclock.withinWindow hsorted hlen) hm'
    · simpa [List.filterMap_map, Function.comp_def] using hfirst
    · obtain ⟨x, -, rfl⟩ := List.mem_map.mp ha
      exact hlru _
  have hsyn : (order.countP fun x => sends isSyn b ip x.2.2) = _ := countP_order hframes isSyn
  have hack : (order.countP fun x => sends isAck b ip x.2.2) = _ := countP_order hframes isAck
  rw [← hsyn] at hsyns
  rw [← hack] at hacks
  rw [hclock.flagged_iff hlen hx hsnap ht hthr hnew hsyns hacks, hsyn, hack]

end Flood

/-! ### Two processors -/

/-- SYN packets of two flows of one source, a flow for each processor. -/
def splitFlood : Fin 2 → List Frame :=
  ![[lateSyn.encode],
    [({ lateSyn with rest := 0x30 :: 0x3A :: lateSyn.rest.drop 2 } : Ipv4Frame).encode]]

def portOwner (key : KwatchFlowKey) : Fin 2 := firstIf (key.sport = 12345)

theorem affine_splitFlood : Affine portOwner .empty splitFlood := by
  have howner (i : Fin 2) : ∀ f ∈ splitFlood i, (flowOf .empty f).map portOwner = some i := by
    revert i
    decide +kernel
  intro i f hf key hkey
  have h := howner i f hf
  rw [hkey] at h
  exact Option.some.inj h

/-- One SYN packet on each of two processors reaches a threshold of 2. -/
theorem parallel_flood_flagged_two : ∃ c',
    Run.exec (Config.step (xdpSysAt steadyHelpers)) (processInParallel
      (kwatchMakeRuntimeConfig 1 1) splitFlood { Maps.empty with blacklist := .empty })
      (List.replicate 10 [0, 1]).flatten = some c' ∧
    (((FlowTracker.create 2 1 false 1).processFlowSnapshot (snapshotOf c'.shared.2.flowState)
      100).Flagged 0x0100000A ↔ 2 ≤ sentInAll splitFlood isSyn .empty 0x0100000A -
        sentInAll splitFlood isAck .empty 0x0100000A) ∧
    2 ≤ sentInAll splitFlood isSyn .empty 0x0100000A -
      sentInAll splitFlood isAck .empty 0x0100000A := by
  obtain ⟨c', hrun, hdone⟩ : ∃ c', Run.exec (Config.step (xdpSysAt steadyHelpers))
      (processInParallel (kwatchMakeRuntimeConfig 1 1) splitFlood
        { Maps.empty with blacklist := .empty }) (List.replicate 10 [0, 1]).flatten = some c' ∧
      ∀ i, c'.progs i = .ret () := ⟨_, rfl, Fin.forall_fin_two.mpr ⟨rfl, rfl⟩⟩
  have hclock : ClockWithin steadyHelpers (List.replicate 10 [(0 : Fin 2), 1]).flatten.length 1
      100 := by
    refine ⟨fun j k hjk (hk : k ≤ 20) => ?_, by decide, by decide, by decide⟩
    simp only [steadyHelpers, UInt64.le_iff_toNat_le, UInt64.toNat_ofNat']
    omega
  have hnew : ¬(FlowTracker.create 2 1 false 1).Flagged 0x0100000A := by
    rintro ⟨s, ⟨⟩, -⟩
  have hthr : 1 ≤ (FlowTracker.create 2 1 false 1).synThreshold.toNat := by decide
  refine ⟨c', hrun, ?_, by decide +kernel⟩
  exact parallel_flood_flagged (fun _ => rfl) affine_splitFlood hrun hdone hclock
    (completeSnapshot_snapshotOf _) rfl hthr hnew (by decide +kernel) (by decide +kernel)

end KWatch
