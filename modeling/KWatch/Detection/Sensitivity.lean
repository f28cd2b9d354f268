import KWatch.Detection.Accusation

/-! # What a snapshot detects

Without evictions the counters of a flow are exact for its current window, so a complete
snapshot flags every source with enough SYN packets in windows that began recently. SYN packets
in a window that began too early are not counted, and a burst can hide there.
-/

namespace KWatch

open AcceptedPacket

/-- An entry that counts the packets of its flow since the start of its window. -/
structure EntryExact (cfg : KwatchRuntimeConfig) (ps : List AcceptedPacket) (k : KwatchFlowKey)
    (s : KwatchFlowStats) : Prop where
  started : ∃ q ∈ ps, s.firstSeenNs = q.timeNs
  start_le : s.firstSeenNs ≤ s.lastSeenNs
  window : 0 < cfg.synWindowNs →
    s.lastSeenNs.toNat ≤ s.firstSeenNs.toNat + cfg.synWindowNs.toNat
  latest : ∀ q ∈ ps, q.key = k → q.timeNs ≤ s.lastSeenNs
  syns : s.synCount = UInt32.ofNat (countSince isSyn ps k s.firstSeenNs)
  acks : s.ackCount = UInt32.ofNat (countSince isAck ps k s.firstSeenNs)

/-- A flow table with an exact entry for every flow that had a packet. -/
structure FlowsExact (cfg : KwatchRuntimeConfig) (ps : List AcceptedPacket)
    (flows : Table KwatchFlowKey KwatchFlowStats) : Prop where
  known : ∀ q ∈ ps, ∃ s, flows.get? q.key = some s
  entry : ∀ k s, flows.get? k = some s → EntryExact cfg ps k s

section Counts

variable {ps : List AcceptedPacket} {p : AcceptedPacket} {k : KwatchFlowKey} {t : UInt64}

theorem since_of_ne (h : k ≠ p.key) : p.since k t = false := by
  simp [since, Ne.symm h]

theorem countSince_eq_zero {flag : AcceptedPacket → Bool}
    (h : ∀ q ∈ ps, q.key = k → q.timeNs < t) : countSince flag ps k t = 0 := by
  rw [countSince, List.countP_eq_zero]
  intro q hq hc
  simp only [since, Bool.and_eq_true, beq_iff_eq, decide_eq_true_eq] at hc
  exact absurd (h q hq hc.2.1) (UInt64.not_lt.mpr hc.2.2)

/-- Incrementing a wrapping counter follows the count. -/
theorem ofNat_count_step (n : ℕ) (b : Bool) :
    UInt32.ofNat (n + if b then 1 else 0) =
      if b then UInt32.ofNat n + 1 else UInt32.ofNat n := by
  cases b
  · rfl
  · exact UInt32.ofNat_add ..

end Counts

variable {cfg : KwatchRuntimeConfig} {ps : List AcceptedPacket} {p : AcceptedPacket}
  {k : KwatchFlowKey} {s : KwatchFlowStats}

theorem EntryExact.other (h : EntryExact cfg ps k s) (hk : k ≠ p.key) :
    EntryExact cfg (ps ++ [p]) k s := by
  obtain ⟨q, hq, he⟩ := h.started
  refine ⟨⟨q, List.mem_append_left _ hq, he⟩, h.start_le, h.window, ?_, ?_, ?_⟩
  · intro q hq hqk
    rcases List.mem_append.mp hq with hq | hq
    · exact h.latest q hq hqk
    · obtain rfl := List.mem_singleton.mp hq
      exact absurd hqk.symm hk
  · rw [countSince_append, since_of_ne hk, Bool.and_false]
    exact h.syns
  · rw [countSince_append, since_of_ne hk, Bool.and_false]
    exact h.acks

variable (cfg) in
/-- A window that a packet starts counts that packet alone. -/
theorem EntryExact.fresh (hclock : ∀ q ∈ ps, q.timeNs ≤ p.timeNs)
    (hbefore : ∀ q ∈ ps, q.key = p.key → q.timeNs < p.timeNs) :
    EntryExact cfg (ps ++ [p]) p.key
      ⟨if p.isSyn then 1 else 0, if p.isAck then 1 else 0, p.timeNs, p.timeNs⟩ := by
  have hself : p.since p.key p.timeNs = true := by simp [since]
  refine ⟨⟨p, by simp, rfl⟩, UInt64.le_refl _, fun _ => Nat.le_add_right _ _, ?_, ?_, ?_⟩
  · intro q hq _
    rcases List.mem_append.mp hq with hq | hq
    · exact hclock q hq
    · rw [List.mem_singleton.mp hq]; exact UInt64.le_refl _
  · rw [countSince_append, countSince_eq_zero hbefore, hself, Bool.and_true, ofNat_count_step]
    rfl
  · rw [countSince_append, countSince_eq_zero hbefore, hself, Bool.and_true, ofNat_count_step]
    rfl

/-- A packet inside the window adds itself to the counts. -/
theorem EntryExact.count (h : EntryExact cfg ps p.key s) (hclock : ∀ q ∈ ps, q.timeNs ≤ p.timeNs)
    (hw : 0 < cfg.synWindowNs → p.timeNs.toNat ≤ s.firstSeenNs.toNat + cfg.synWindowNs.toNat) :
    EntryExact cfg (ps ++ [p]) p.key
      ⟨if p.isSyn then s.synCount + 1 else s.synCount,
        if p.isAck then s.ackCount + 1 else s.ackCount, s.firstSeenNs, p.timeNs⟩ := by
  obtain ⟨q, hq, he⟩ := h.started
  have hself : p.since p.key s.firstSeenNs = true := by
    simp [since, he, hclock q hq]
  refine ⟨⟨q, List.mem_append_left _ hq, he⟩, he ▸ hclock q hq, hw, ?_, ?_, ?_⟩
  · intro q hq _
    rcases List.mem_append.mp hq with hq | hq
    · exact hclock q hq
    · rw [List.mem_singleton.mp hq]; exact UInt64.le_refl _
  · rw [countSince_append, hself, Bool.and_true, ofNat_count_step, h.syns]
  · rw [countSince_append, hself, Bool.and_true, ofNat_count_step, h.acks]

theorem isSyn_iff (p : AcceptedPacket) : p.isSyn = true ↔ p.tcpFlags &&& 0x02 ≠ 0 := by
  simp [isSyn]

theorem isAck_iff (p : AcceptedPacket) : p.isAck = true ↔ p.tcpFlags &&& 0x10 ≠ 0 := by
  simp [isAck]

/-- The accounting of a packet keeps its flow's entry exact. -/
theorem EntryExact.update (h : EntryExact cfg ps p.key s)
    (hclock : ∀ q ∈ ps, q.timeNs ≤ p.timeNs) :
    EntryExact cfg (ps ++ [p]) p.key (updateFlowStats cfg p.timeNs p.tcpFlags s) := by
  rcases restartWindow_cases cfg p.timeNs s with ⟨hr, hw, hlt, hgap⟩ | ⟨hr, hno⟩
  · have hgap := UInt64.lt_iff_toNat_lt.mp hgap
    rw [UInt64.toNat_sub_of_le _ _ (UInt64.le_of_lt hlt)] at hgap
    have hlast := h.window hw
    have hbefore : ∀ q ∈ ps, q.key = p.key → q.timeNs < p.timeNs := fun q hq hqk =>
      UInt64.lt_iff_toNat_lt.mpr (by
        have := UInt64.le_iff_toNat_le.mp (h.latest q hq hqk)
        omega)
    have hf := EntryExact.fresh cfg hclock hbefore
    simpa [updateFlowStats, hr, isSyn_iff, isAck_iff] using hf
  · have hw : 0 < cfg.synWindowNs →
        p.timeNs.toNat ≤ s.firstSeenNs.toNat + cfg.synWindowNs.toNat := by
      intro hw
      by_contra hgt
      have hlt : s.firstSeenNs < p.timeNs := UInt64.lt_iff_toNat_lt.mpr (by omega)
      refine hno ⟨hw, hlt, UInt64.lt_iff_toNat_lt.mpr ?_⟩
      rw [UInt64.toNat_sub_of_le _ _ (UInt64.le_of_lt hlt)]
      omega
    have hc := h.count hclock hw
    simpa [updateFlowStats, hr, isSyn_iff, isAck_iff] using hc

theorem FlowsExact.account {flows : Table KwatchFlowKey KwatchFlowStats}
    (hx : FlowsExact cfg ps flows) {h : Helpers} (hp : p.timeNs = h.nowNs)
    (hv : h.lruVictims = []) (hclock : ∀ q ∈ ps, q.timeNs ≤ p.timeNs) :
    FlowsExact cfg (ps ++ [p]) (accountFlow cfg h p.key p.tcpFlags flows).1 := by
  constructor
  · intro q hq
    have hold : q.key ≠ p.key → ∃ s, flows.get? q.key = some s := fun hne => by
      rcases List.mem_append.mp hq with hq | hq
      · exact hx.known q hq
      · exact absurd (congrArg AcceptedPacket.key (List.mem_singleton.mp hq)) hne
    unfold accountFlow
    by_cases he : q.key = p.key
    · rw [he]
      cases flows.get? p.key <;> exact ⟨_, Table.get?_set_self ..⟩
    · obtain ⟨s, hs⟩ := hold he
      refine ⟨s, ?_⟩
      cases flows.get? p.key with
      | none => simpa [hv, Table.get?_set_ne _ he] using hs
      | some s₀ => simpa [Table.get?_set_ne _ he] using hs
  · intro k s hs
    rcases accountFlow_get?_cases hs with ⟨rfl, hnone, rfl⟩ | ⟨rfl, s₀, hs₀, rfl⟩ | ⟨hk, hs⟩
    · have hbefore : ∀ q ∈ ps, q.key = p.key → q.timeNs < p.timeNs := fun q hq hqk => by
        obtain ⟨s, hs⟩ := hx.known q hq
        rw [hqk, hnone] at hs
        cases hs
      rw [← hp]
      simpa [newFlowStats, isSyn_iff, isAck_iff] using
        EntryExact.fresh cfg hclock hbefore
    · rw [← hp]
      exact (hx.entry _ s₀ hs₀).update hclock
    · exact (hx.entry k s hs).other hk

/-! ### Runs without evictions -/

def Step.Keeps : Step → Prop
  | .packet a => a.helpers.lruVictims = []
  | .evict _ => False
  | .call _ => True

/-- No flow leaves the map during the steps. -/
def NoEviction (steps : List Step) : Prop := ∀ st ∈ steps, st.Keeps

theorem System.run_flowsExact {t : FlowTracker} {steps : List Step} {s : System}
    (hc : ClockOk steps) (hev : NoEviction steps) (h : (start t).run cfg steps = some s) :
    FlowsExact cfg (accepted steps) s.maps.flowState := by
  induction steps using List.reverseRecOn generalizing s with
  | nil =>
    cases h
    constructor <;> intro _ _ <;> simp_all [start, Maps.empty, accepted]
  | append_singleton steps st ih =>
    rw [run_append, Option.bind_eq_some_iff] at h
    obtain ⟨s₀, h₀, hst⟩ := h
    have ih := ih hc.of_append (fun st' h' => hev st' (List.mem_append_left _ h')) h₀
    have hkeep : st.Keeps := hev st (by simp)
    rw [accepted_append]
    cases st with
    | packet a =>
      rw [(step_packet_flowState hst).2]
      simp only [Step.accepted]
      cases ha : a.accepted with
      | none => simpa using ih
      | some p =>
        exact ih.account (Arrival.timeNs_of_accepted ha) hkeep (hc.accepted_le (.packet a) ha)
    | evict key => exact hkeep.elim
    | call c =>
      cases hst
      simpa [Step.accepted] using ih

/-- Only TCP packets have flags. -/
theorem accepted_syn_protocol {a : Arrival} {p : AcceptedPacket} (h : a.accepted = some p)
    (hs : p.isSyn = true) : p.key.protocol = IPPROTO_TCP := by
  obtain ⟨F, hF, -, rfl⟩ := accepted_eq_some_iff.mp h
  by_contra hne
  have hproto : F.ip.protocol ≠ IPPROTO_TCP := hne
  have hflags : F.tcpFlags = 0 := if_neg fun h => hproto h.1
  simp [isSyn, hflags] at hs

/-! ### Complete snapshots -/

/-- Every flow of the map once, in any order. -/
structure CompleteSnapshot (flows : Table KwatchFlowKey KwatchFlowStats)
    (entries : List FlowMapEntry) : Prop where
  nodup : (entries.map FlowMapEntry.key).Nodup
  mem_iff : ∀ e, e ∈ entries ↔ flows.get? e.key = some e.stats

/-- Whether a packet was counted in a window of its flow that is current and began at most
`window` seconds before `now`. -/
def inCurrentWindow (flows : Table KwatchFlowKey KwatchFlowStats) (window : UInt32) (now : UInt64)
    (p : AcceptedPacket) : Bool :=
  match flows.get? p.key with
  | none => false
  | some s => s.firstSeenNs ≤ p.timeNs &&
      decide (now.toNat ≤ s.firstSeenNs.toNat + window.toNat * 1000000000)

/-- The SYN packets of a source that were counted in such windows. -/
def countedSyns (flows : Table KwatchFlowKey KwatchFlowStats) (steps : List Step)
    (ip window : UInt32) (now : UInt64) : ℕ :=
  (accepted steps).countP fun p => p.isSyn && p.key.srcIp == ip && inCurrentWindow flows window now p

section Snapshot

variable {flows : Table KwatchFlowKey KwatchFlowStats} {entries : List FlowMapEntry}
  {steps : List Step} {ip window : UInt32} {now : UInt64}

variable (ip window now) in
/-- The live entries of a complete snapshot are the TCP flows whose window began recently. -/
theorem mem_liveEntries_iff (hsnap : CompleteSnapshot flows entries)
    (hx : FlowsExact cfg (accepted steps) flows) (hpos : ∀ q ∈ accepted steps, 0 < q.timeNs)
    {e : FlowMapEntry} :
    e ∈ FlowTracker.liveEntries (window.toUInt64 * 1000000000) now entries ip ↔
      flows.get? e.key = some e.stats ∧ e.key.protocol = 6 ∧ e.key.srcIp = ip ∧
        now.toNat ≤ e.stats.firstSeenNs.toNat + window.toNat * 1000000000 := by
  simp only [FlowTracker.liveEntries, List.mem_filter, Bool.and_eq_true, beq_iff_eq,
    FlowTracker.isLive_iff, hsnap.mem_iff, FlowTracker.toNat_seconds]
  constructor
  · rintro ⟨hget, ⟨⟨hproto, -⟩, -, hstart⟩, hip⟩
    obtain ⟨q, hq, he⟩ := (hx.entry _ _ hget).started
    refine ⟨hget, hproto, hip, hstart.resolve_left fun h0 => ?_⟩
    exact (UInt64.ne_of_lt (he ▸ hpos q hq)) h0.symm
  · rintro ⟨hget, hproto, hip, hstart⟩
    obtain ⟨q, hq, he⟩ := (hx.entry _ _ hget).started
    have hle := UInt64.le_iff_toNat_le.mp (hx.entry _ _ hget).start_le
    have h0 : (0 : UInt64).toNat < e.stats.firstSeenNs.toNat :=
      UInt64.lt_iff_toNat_lt.mp (he ▸ hpos q hq)
    refine ⟨hget, ⟨⟨hproto, fun hl => ?_⟩, by omega, Or.inr hstart⟩, hip⟩
    rw [hl] at hle
    exact absurd hle (not_le.mpr h0)

variable (ip window now) in
/-- The SYN counts of the live entries add up to the counted SYN packets. -/
theorem sum_syns_eq (hsnap : CompleteSnapshot flows entries)
    (hx : FlowsExact cfg (accepted steps) flows) (hpos : ∀ q ∈ accepted steps, 0 < q.timeNs) :
    ((FlowTracker.liveEntries (window.toUInt64 * 1000000000) now entries ip).map fun e =>
      countSince isSyn (accepted steps) e.key e.stats.firstSeenNs).sum =
      countedSyns flows steps ip window now := by
  have hkeys : ((FlowTracker.liveEntries (window.toUInt64 * 1000000000) now entries ip).map
      FlowMapEntry.key).Nodup := hsnap.nodup.sublist (List.filter_sublist.map _)
  refine (Sums.sum_countP AcceptedPacket.key FlowMapEntry.key _ hkeys fun e p hp => ?_).trans ?_
  · simp only [since, Bool.and_eq_true, beq_iff_eq] at hp
    exact hp.2.1
  · apply List.countP_congr
    intro p hp
    simp only [List.any_eq_true, mem_liveEntries_iff ip window now hsnap hx hpos, since,
      Bool.and_eq_true,
      beq_iff_eq, decide_eq_true_eq, inCurrentWindow]
    constructor
    · rintro ⟨e, ⟨hget, -, hip, hstart⟩, hsyn, hkey, htime⟩
      rw [hkey, hget]
      exact ⟨⟨hsyn, hip⟩, by simpa using ⟨htime, hstart⟩⟩
    · rintro ⟨⟨hsyn, hip⟩, hcur⟩
      obtain ⟨s, hs⟩ := hx.known p hp
      simp only [hs, Bool.and_eq_true, decide_eq_true_eq] at hcur
      obtain ⟨st, -, ha⟩ := List.mem_filterMap.mp hp
      have hproto : p.key.protocol = 6 := by
        cases st with
        | packet a => exact accepted_syn_protocol ha hsyn
        | evict key => cases ha
        | call c => cases ha
      exact ⟨⟨p.key, s⟩, ⟨hs, hproto, hip, hcur.2⟩, hsyn, rfl, hcur.1⟩

/-- The aggregate of a source has the counted SYN packets in 32 bits. -/
theorem aggregate_synCount (hsnap : CompleteSnapshot flows entries)
    (hx : FlowsExact cfg (accepted steps) flows) (hpos : ∀ q ∈ accepted steps, 0 < q.timeNs)
    {g : FlowAggregate} (hm : FlowTracker.mergeAll (FlowTracker.liveEntries
      (window.toUInt64 * 1000000000) now entries ip) = some g) :
    g.synCount = UInt32.ofNat (countedSyns flows steps ip window now) := by
  rw [(FlowTracker.mergeAll_counts hm).1, ← sum_syns_eq ip window now hsnap hx hpos,
    ← Sums.sum_ofNat]
  refine congrArg List.sum (List.map_congr_left fun e he => ?_)
  exact (hx.entry _ _ ((mem_liveEntries_iff ip window now hsnap hx hpos).mp he).1).syns

/-- Without ACK packets in the window the aggregate of a source has none. -/
theorem aggregate_ackCount (hsnap : CompleteSnapshot flows entries)
    (hx : FlowsExact cfg (accepted steps) flows) (hpos : ∀ q ∈ accepted steps, 0 < q.timeNs)
    (hack : ∀ p ∈ accepted steps, p.key.srcIp = ip → p.isAck = true →
      p.timeNs.toNat + window.toNat * 1000000000 < now.toNat)
    {g : FlowAggregate} (hm : FlowTracker.mergeAll (FlowTracker.liveEntries
      (window.toUInt64 * 1000000000) now entries ip) = some g) : g.ackCount = 0 := by
  have hz : ∀ e ∈ FlowTracker.liveEntries (window.toUInt64 * 1000000000) now entries ip,
      e.stats.ackCount = UInt32.ofNat 0 := by
    intro e he
    obtain ⟨hget, -, hip, hstart⟩ := (mem_liveEntries_iff ip window now hsnap hx hpos).mp he
    rw [(hx.entry _ _ hget).acks]
    congr 1
    rw [countSince, List.countP_eq_zero]
    intro p hp hc
    simp only [since, Bool.and_eq_true, beq_iff_eq, decide_eq_true_eq] at hc
    obtain ⟨hpack, hkey, htime⟩ := hc
    have hlate := hack p hp (by rw [hkey, hip]) hpack
    have htime := UInt64.le_iff_toNat_le.mp htime
    omega
  rw [(FlowTracker.mergeAll_counts hm).2, List.map_congr_left hz, Sums.sum_ofNat]
  simp

end Snapshot

/-- A complete snapshot flags a source with enough SYN packets, and no ACK packet, in windows of
their flows that are current and began at most a window before. -/
theorem snapshot_flags (sampleN threshold window ttl : UInt32) (autoBlock : Bool)
    (steps : List Step) (hclock : ClockOk steps) (hev : NoEviction steps) {s : System}
    (hrun : (System.start (.create threshold window autoBlock ttl)).run
      (kwatchMakeRuntimeConfig sampleN window) steps = some s)
    {entries : List FlowMapEntry} (hsnap : CompleteSnapshot s.maps.flowState entries)
    {now : UInt64} {ip : UInt32} (hthr : 1 ≤ threshold.toNat)
    (hsyns : threshold.toNat ≤ countedSyns s.maps.flowState steps ip window now)
    (hfew : countedSyns s.maps.flowState steps ip window now < 2 ^ 32)
    (hack : ∀ p ∈ accepted steps, p.key.srcIp = ip → p.isAck = true →
      p.timeNs.toNat + window.toNat * 1000000000 < now.toNat) :
    (s.tracker.tracker.processFlowSnapshot entries now).Flagged ip := by
  obtain ⟨ht, hw⟩ := System.run_tracker_config hrun
  have hx := System.run_flowsExact hclock hev hrun
  have hpos : ∀ q ∈ accepted steps, 0 < q.timeNs := fun q hq =>
    hclock.2 _ (mem_accepted_time hq)
  cases hm : FlowTracker.mergeAll
      (FlowTracker.liveEntries (window.toUInt64 * 1000000000) now entries ip) with
  | none =>
    have hsum := sum_syns_eq ip window now hsnap hx hpos
    rw [FlowTracker.mergeAll_eq_none_iff.mp hm] at hsum
    simp only [List.map_nil, List.sum_nil] at hsum
    omega
  | some g =>
    have hs := aggregate_synCount hsnap hx hpos hm
    have ha := aggregate_ackCount hsnap hx hpos hack hm
    have hget := FlowTracker.processFlowSnapshot_get? entries now s.tracker.tracker ip
    rw [hw] at hget
    have hget := hget.trans (congrArg _ (show _ = some g from hm))
    refine ⟨_, hget, ?_⟩
    simp only [FlowTracker.applyAggregate, Bool.or_eq_true, decide_eq_true_eq]
    right
    have hn : g.synCount.toNat = countedSyns s.maps.flowState steps ip window now := by
      rw [hs, UInt32.toNat_ofNat', Nat.mod_eq_of_lt hfew]
    have hlt : g.ackCount < g.synCount := by
      rw [ha, UInt32.lt_iff_toNat_lt, hn]
      simpa using by omega
    rw [FlowTracker.unmatchedSyns, if_pos hlt, ha, ht, UInt32.le_iff_toNat_le, UInt32.sub_zero, hn]
    exact hsyns

/-- The entries of a flow table in its own order. -/
def snapshotOf (flows : Table KwatchFlowKey KwatchFlowStats) : List FlowMapEntry :=
  flows.entries.map fun e => ⟨e.1, e.2⟩

theorem completeSnapshot_snapshotOf (flows : Table KwatchFlowKey KwatchFlowStats) :
    CompleteSnapshot flows (snapshotOf flows) := by
  refine ⟨by simpa [snapshotOf, Function.comp_def] using flows.nodup, fun e => ?_⟩
  simp only [snapshotOf, List.mem_map, Prod.exists, Table.get?_eq_some_iff]
  constructor
  · rintro ⟨k, s, hm, rfl⟩
    exact hm
  · exact fun hm => ⟨_, _, hm, rfl⟩

theorem noEviction_synRun (times : List UInt64) : NoEviction (synRun times) := by
  intro st hst
  obtain ⟨t, -, rfl⟩ := List.mem_map.mp hst
  rfl

/-- A burst of two SYN packets within the second of a flow's first packet is flagged. -/
theorem snapshot_flags_burst : ∃ s, (System.start (.create 2 1 true 300)).run
      (kwatchMakeRuntimeConfig 100 1) (synRun [1000000000, 1000000001]) = some s ∧
    (s.tracker.tracker.processFlowSnapshot (snapshotOf s.maps.flowState) 1000000002).Flagged
      0x0100000A := by
  obtain ⟨s, hrun, ht, hf⟩ := run_synRun (kwatchMakeRuntimeConfig 100 1) (.create 2 1 true 300)
    [1000000000, 1000000001]
  have hc : countedSyns s.maps.flowState (synRun [1000000000, 1000000001]) 0x0100000A 1
      1000000002 = 2 := by
    rw [countedSyns, accepted_synRun, hf]
    decide
  refine ⟨s, hrun, snapshot_flags 100 2 1 300 true _ (clockOk_synRun _ (by decide) (by simp))
    (noEviction_synRun _) hrun (completeSnapshot_snapshotOf _) (by decide) hc.ge
    (by rw [hc]; decide) ?_⟩
  rw [accepted_synRun]
  decide

/-- Two SYN packets within a second of the snapshot are missed when their flow's window began
before that second. -/
theorem snapshot_misses_burst : ∃ s, (System.start (.create 2 1 true 300)).run
      (kwatchMakeRuntimeConfig 100 1) (synRun [1, 1000000000, 1000000001]) = some s ∧
    ClockOk (synRun [1, 1000000000, 1000000001]) ∧
    NoEviction (synRun [1, 1000000000, 1000000001]) ∧
    CompleteSnapshot s.maps.flowState (snapshotOf s.maps.flowState) ∧
    synPackets (synRun [1, 1000000000, 1000000001]) 0x0100000A 1 1000000002 = 2 ∧
    (∀ p ∈ accepted (synRun [1, 1000000000, 1000000001]), p.isAck = false) ∧
    ¬ (s.tracker.tracker.processFlowSnapshot (snapshotOf s.maps.flowState) 1000000002).Flagged
      0x0100000A := by
  obtain ⟨s, hrun, ht, hf⟩ := run_synRun (kwatchMakeRuntimeConfig 100 1) (.create 2 1 true 300)
    [1, 1000000000, 1000000001]
  refine ⟨s, hrun, clockOk_synRun _ (by decide) (by simp), noEviction_synRun _,
    completeSnapshot_snapshotOf _, ?_, ?_, ?_⟩
  · rw [synPackets, accepted_synRun]
    decide
  · rw [accepted_synRun]
    decide
  · rw [ht, hf]
    rintro ⟨st, hst, -⟩
    have hnone : ((FlowTracker.create 2 1 true 300).processFlowSnapshot
        (snapshotOf (synFlows (kwatchMakeRuntimeConfig 100 1) [1, 1000000000, 1000000001]))
        1000000002).ipStats.get? 0x0100000A = none := by decide +kernel
    rw [hnone] at hst
    cases hst

end KWatch
