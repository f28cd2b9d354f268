import KWatch.Detection.Flows
import KWatch.Library.Run
import KWatch.Library.Sums
import KWatch.Tracker.Lifecycle

/-! # No false accusation

The packet program and the tracker run side by side: packets arrive, flows are evicted, and the
tracker is called, in any order. A snapshot that flags a source comes with as many accepted SYN
packets of that source, from the window before the snapshot on, as the threshold asks for.
-/

namespace KWatch

open AcceptedPacket

/-- A step of the packet program, of the flow map, or of the tracker. -/
inductive Step where
  | packet (a : Arrival)
  | evict (key : KwatchFlowKey)
  | call (c : TrackerCall)

/-- The kernel maps and the tracker. -/
structure System where
  maps : Maps
  tracker : LoggedTracker

namespace System

def start (t : FlowTracker) : System := ⟨.empty, t, []⟩

def step (cfg : KwatchRuntimeConfig) (s : System) : Step → Option System
  | .packet a => (xdpKwatchProg cfg a.helpers a.frame { s.maps with blacklist := a.blacklist }).map
      fun r => { s with maps := r.2 }
  | .evict key => some { s with maps := { s.maps with flowState := s.maps.flowState.erase key } }
  | .call c => some { s with tracker := s.tracker.call c }

def run (cfg : KwatchRuntimeConfig) : System → List Step → Option System := Run.exec (step cfg)

end System

def Step.time? : Step → Option UInt64
  | .packet a => some a.helpers.nowNs
  | _ => none

def Step.accepted : Step → Option AcceptedPacket
  | .packet a => a.accepted
  | _ => none

/-- The packets accepted during the steps, oldest first. -/
def accepted (steps : List Step) : List AcceptedPacket := steps.filterMap Step.accepted

/-- The kernel clock never goes back and never shows 0. -/
def ClockOk (steps : List Step) : Prop :=
  (steps.filterMap Step.time?).Pairwise (· ≤ ·) ∧ ∀ t ∈ steps.filterMap Step.time?, 0 < t

/-- The entries were read from the flow map during the steps, each at a moment of its own. -/
def ReadDuring (cfg : KwatchRuntimeConfig) (s₀ : System) (steps : List Step)
    (entries : List FlowMapEntry) : Prop :=
  ∀ e ∈ entries, ∃ past s, past <+: steps ∧ s₀.run cfg past = some s ∧
    s.maps.flowState.get? e.key = some e.stats

/-- The accepted SYN packets of a source from `window` seconds before `now` on. -/
def synPackets (steps : List Step) (ip window : UInt32) (now : UInt64) : ℕ :=
  (accepted steps).countP fun p => p.isSyn && p.key.srcIp == ip &&
    decide (now.toNat ≤ p.timeNs.toNat + window.toNat * 1000000000)

/-! ### Flow counters along a run -/

theorem accepted_append (steps : List Step) (st : Step) :
    accepted (steps ++ [st]) = accepted steps ++ st.accepted.toList := by
  rw [accepted, List.filterMap_append]
  cases h : st.accepted <;> simp [accepted, h]

theorem mem_accepted_time {steps : List Step} {p : AcceptedPacket} (hp : p ∈ accepted steps) :
    p.timeNs ∈ steps.filterMap Step.time? := by
  obtain ⟨st, hst, ha⟩ := List.mem_filterMap.mp hp
  cases st with
  | packet a =>
    obtain ⟨ip, -, rfl⟩ := Option.map_eq_some_iff.mp ha
    exact List.mem_filterMap.mpr ⟨_, hst, rfl⟩
  | evict key => cases ha
  | call c => cases ha

theorem ClockOk.of_append {steps more : List Step} (h : ClockOk (steps ++ more)) :
    ClockOk steps := by
  rw [ClockOk, List.filterMap_append] at h
  exact ⟨(List.pairwise_append.mp h.1).1, fun t ht => h.2 t (List.mem_append_left _ ht)⟩

theorem ClockOk.accepted_le {steps : List Step} (st : Step) (h : ClockOk (steps ++ [st]))
    {p : AcceptedPacket} (hp : st.accepted = some p) :
    ∀ q ∈ accepted steps, q.timeNs ≤ p.timeNs := by
  intro q hq
  have hpt : p.timeNs ∈ [st].filterMap Step.time? :=
    mem_accepted_time (show p ∈ accepted [st] by simp [accepted, hp])
  have hpw := h.1
  rw [List.filterMap_append] at hpw
  exact (List.pairwise_append.mp hpw).2.2 _ (mem_accepted_time hq) _ hpt

namespace System

variable {cfg : KwatchRuntimeConfig} {s s' : System}

theorem run_append (s : System) (steps : List Step) (st : Step) :
    s.run cfg (steps ++ [st]) = (s.run cfg steps).bind fun s' => s'.step cfg st :=
  Run.exec_append s steps st

/-- A packet changes the flow table by its accounting if it is accepted. -/
theorem step_packet_flowState {a : Arrival} (h : s.step cfg (.packet a) = some s') :
    s'.tracker = s.tracker ∧ s'.maps.flowState = match a.accepted with
      | none => s.maps.flowState
      | some p => (accountFlow cfg a.helpers p.key p.tcpFlags s.maps.flowState).1 := by
  simp only [step, xdpKwatchProg_eq, Option.map_some, Option.some.injEq] at h
  subst h
  refine ⟨rfl, ?_⟩
  simp only [runView_flowState, Arrival.accepted]
  cases acceptedPacket a.blacklist (frameView a.frame) <;> rfl

variable (cfg) in
theorem step_total (s : System) (st : Step) : ∃ s', s.step cfg st = some s' := by
  cases st with
  | packet a => exact ⟨_, by simp only [step, xdpKwatchProg_eq, Option.map_some]; rfl⟩
  | evict key => exact ⟨_, rfl⟩
  | call c => exact ⟨_, rfl⟩

theorem run_flowsBounded {t : FlowTracker} {steps : List Step} (hc : ClockOk steps)
    (h : (start t).run cfg steps = some s) : FlowsBounded (accepted steps) s.maps.flowState := by
  induction steps using List.reverseRecOn generalizing s with
  | nil =>
    cases h
    constructor <;> intro _ _ h <;> cases h
  | append_singleton steps st ih =>
    rw [run_append, Option.bind_eq_some_iff] at h
    obtain ⟨s₀, h₀, hst⟩ := h
    have ih := ih hc.of_append h₀
    rw [accepted_append]
    cases st with
    | packet a =>
      rw [(step_packet_flowState hst).2]
      simp only [Step.accepted]
      cases ha : a.accepted with
      | none => simpa using ih
      | some p =>
        exact ih.account cfg a.helpers (Arrival.timeNs_of_accepted ha)
          (hc.accepted_le (.packet a) ha)
    | evict key =>
      cases hst
      simpa [Step.accepted] using ih.erase key
    | call c =>
      cases hst
      simpa [Step.accepted] using ih

/-- No step changes what the tracker was created with. -/
theorem run_tracker_config {t : FlowTracker} {steps : List Step}
    (h : (start t).run cfg steps = some s) :
    s.tracker.tracker.synThreshold = t.synThreshold ∧
      s.tracker.tracker.synWindowNs = t.synWindowNs := by
  induction steps using List.reverseRecOn generalizing s with
  | nil => cases h; exact ⟨rfl, rfl⟩
  | append_singleton steps st ih =>
    rw [run_append, Option.bind_eq_some_iff] at h
    obtain ⟨s₀, h₀, hst⟩ := h
    have ih := ih h₀
    cases st with
    | packet a => rw [(step_packet_flowState hst).1]; exact ih
    | evict key => cases hst; exact ih
    | call c => cases hst; cases c <;> exact ih

end System

/-! ### Snapshots -/

namespace FlowTracker

/-- A source that a snapshot flags has the threshold of unmatched SYNs among its live entries. -/
theorem flagged_after_snapshot {t : FlowTracker} {entries : List FlowMapEntry} {now : UInt64}
    {ip : UInt32} (hfresh : ¬ t.Flagged ip)
    (hflag : (processFlowSnapshot entries now t).Flagged ip) :
    t.synThreshold.toNat ≤
      ((liveEntries t.synWindowNs now entries ip).map fun e => e.stats.synCount.toNat).sum := by
  obtain ⟨s', hs', hf⟩ := hflag
  rw [processFlowSnapshot_get?] at hs'
  have hold : ∀ s, t.ipStats.get? ip = some s → s.isFlagged = false := fun s hs =>
    Bool.eq_false_iff.mpr fun h => hfresh ⟨s, hs, h⟩
  cases hm : mergeAll (liveEntries t.synWindowNs now entries ip) with
  | none =>
    rw [hm, nextStats, Option.map_eq_some_iff] at hs'
    obtain ⟨s, hs, rfl⟩ := hs'
    rw [resetStale_not_flagged (hold s hs)] at hf
    cases hf
  | some g =>
    rw [hm, nextStats, Option.some.injEq] at hs'
    subst hs'
    have hnew : ((t.ipStats.get? ip).getD {}).isFlagged = false := by
      cases hs : t.ipStats.get? ip with
      | none => rfl
      | some s => exact hold s hs
    simp only [applyAggregate, hnew, Bool.false_or, decide_eq_true_eq] at hf
    have hle : t.synThreshold.toNat ≤ g.synCount.toNat := by
      apply (UInt32.le_iff_toNat_le.mp hf).trans
      unfold unmatchedSyns
      split
      · next hlt =>
        rw [UInt32.toNat_sub_of_le _ _ (UInt32.le_of_lt hlt)]
        exact Nat.sub_le _ _
      · exact Nat.zero_le _
    apply hle.trans
    rw [(mergeAll_counts hm).1, Sums.toNat_sum, List.map_map]
    exact Nat.mod_le _ _

/-- A live entry of a source started within the window. -/
theorem liveEntries_start {window now : UInt64} {entries : List FlowMapEntry} {ip : UInt32}
    {e : FlowMapEntry} (he : e ∈ liveEntries window now entries ip)
    (hpos : 0 < e.stats.firstSeenNs) :
    e ∈ entries ∧ e.key.srcIp = ip ∧ now.toNat ≤ e.stats.firstSeenNs.toNat + window.toNat := by
  simp only [liveEntries, List.mem_filter, Bool.and_eq_true, beq_iff_eq, isLive_iff] at he
  obtain ⟨hm, ⟨-, -, h0 | hstart⟩, hip⟩ := he
  · rw [h0] at hpos
    cases hpos
  · exact ⟨hm, hip, hstart⟩

end FlowTracker

/-- A source that a snapshot flags has sent the threshold of SYN packets within the window. -/
theorem flagged_has_syns (cfg : KwatchRuntimeConfig) (threshold window ttl : UInt32)
    (autoBlock : Bool) (reading later : List Step) {s : System}
    (hclock : ClockOk (reading ++ later))
    (hrun : (System.start (.create threshold window autoBlock ttl)).run cfg (reading ++ later) =
      some s)
    {entries : List FlowMapEntry} {now : UInt64}
    (hread : ReadDuring cfg (.start (.create threshold window autoBlock ttl)) reading entries)
    (hkeys : (entries.map FlowMapEntry.key).Nodup) {ip : UInt32}
    (hfresh : ¬ s.tracker.tracker.Flagged ip)
    (hflag : (s.tracker.tracker.processFlowSnapshot entries now).Flagged ip) :
    threshold.toNat ≤ synPackets reading ip window now := by
  obtain ⟨hthr, hwin⟩ := System.run_tracker_config hrun
  have hsum := FlowTracker.flagged_after_snapshot hfresh hflag
  rw [hthr, hwin] at hsum
  set live := FlowTracker.liveEntries (window.toUInt64 * 1000000000) now entries ip with hlive
  have hentry : ∀ e ∈ live, e.key.srcIp = ip ∧
      now.toNat ≤ e.stats.firstSeenNs.toNat + window.toNat * 1000000000 ∧
      e.stats.synCount.toNat ≤ countSince isSyn (accepted reading) e.key e.stats.firstSeenNs := by
    intro e he
    obtain ⟨past, s', hpast, hrun', hget⟩ := hread e (List.mem_of_mem_filter he)
    obtain ⟨rest, rfl⟩ := hpast
    have hclock' : ClockOk past := hclock.of_append.of_append
    have hb := System.run_flowsBounded hclock' hrun'
    obtain ⟨q, hq, hqt⟩ := hb.seen _ _ hget
    have hpos : 0 < e.stats.firstSeenNs := hqt ▸ hclock'.2 _ (mem_accepted_time hq)
    obtain ⟨-, hip, hstart⟩ := FlowTracker.liveEntries_start he hpos
    rw [FlowTracker.toNat_seconds] at hstart
    refine ⟨hip, hstart, (hb.syns _ _ hget).trans ?_⟩
    exact (List.Sublist.filterMap _ (List.sublist_append_left past rest)).countP_le
  calc threshold.toNat
      ≤ (live.map fun e => e.stats.synCount.toNat).sum := hsum
    _ ≤ (live.map fun e => countSince isSyn (accepted reading) e.key e.stats.firstSeenNs).sum :=
        List.sum_le_sum fun e he => (hentry e he).2.2
    _ = (accepted reading).countP fun p => live.any fun e =>
          p.isSyn && p.since e.key e.stats.firstSeenNs := by
        refine Sums.sum_countP AcceptedPacket.key FlowMapEntry.key _
          (hkeys.sublist (List.filter_sublist.map _)) fun e p hp => ?_
        simp only [since, Bool.and_eq_true, beq_iff_eq] at hp
        exact hp.2.1
    _ ≤ synPackets reading ip window now := by
        apply List.countP_mono_left
        intro p _ hp
        obtain ⟨e, he, hep⟩ := List.any_eq_true.mp hp
        obtain ⟨hip, hstart, -⟩ := hentry e he
        simp only [since, Bool.and_eq_true, beq_iff_eq, decide_eq_true_eq] at hep
        obtain ⟨hsyn, hkey, htime⟩ := hep
        have htime := UInt64.le_iff_toNat_le.mp htime
        simp only [hsyn, hkey, hip, beq_self_eq_true, Bool.and_self, Bool.true_and,
          decide_eq_true_eq]
        omega

/-- A SYN packet from 10.0.0.1 to 10.0.0.2 without options. -/
def synFrame : Frame :=
  [0, 0, 0, 0, 0, 0, 0, 0, 0, 0, 0, 0, 0x08, 0x00,
    0x45, 0, 0, 40, 0, 0, 0, 0, 64, 6, 0, 0, 10, 0, 0, 1, 10, 0, 0, 2,
    0x30, 0x39, 0, 80, 0, 0, 0, 1, 0, 0, 0, 0, 0x50, 0x02, 0xff, 0xff, 0, 0, 0, 0]

def synArrival (now : UInt64) : Arrival := ⟨synFrame, ⟨now, now, 0, false, []⟩, .empty⟩

def synKey : KwatchFlowKey := ⟨0x0100000A, 0x0200000A, 12345, 80, 6⟩

theorem synArrival_accepted (now : UInt64) :
    (synArrival now).accepted = some ⟨now, synKey, 2⟩ := by
  have hv : frameView synFrame = .ipv4 ⟨34, 6, 64, 0x0100000A, 0x0200000A⟩ := rfl
  have hb : (LpmTrie.empty.lookup (hostKey 0x0100000A)).isSome = false := by decide
  simp [Arrival.accepted, synArrival, hv, acceptedPacket, isBlacklisted, hb]
  decide

/-- What a SYN packet does to the flow table. -/
theorem step_synArrival (cfg : KwatchRuntimeConfig) (s : System) (now : UInt64) :
    ∃ s', s.step cfg (.packet (synArrival now)) = some s' ∧ s'.tracker = s.tracker ∧
      s'.maps.flowState =
        (accountFlow cfg ⟨now, now, 0, false, []⟩ synKey 2 s.maps.flowState).1 := by
  obtain ⟨s', hs'⟩ := System.step_total cfg s (.packet (synArrival now))
  obtain ⟨ht, hf⟩ := System.step_packet_flowState hs'
  rw [synArrival_accepted] at hf
  exact ⟨s', hs', ht, hf⟩

/-- A run of SYN packets at the given times. -/
def synRun (times : List UInt64) : List Step := times.map fun t => .packet (synArrival t)

/-- The flow table after such a run. -/
def synFlows (cfg : KwatchRuntimeConfig) (times : List UInt64) :
    Table KwatchFlowKey KwatchFlowStats :=
  times.foldl (fun flows t => (accountFlow cfg ⟨t, t, 0, false, []⟩ synKey 2 flows).1) .empty

theorem run_synRun (cfg : KwatchRuntimeConfig) (t : FlowTracker) (times : List UInt64) :
    ∃ s, (System.start t).run cfg (synRun times) = some s ∧ s.tracker = ⟨t, []⟩ ∧
      s.maps.flowState = synFlows cfg times := by
  induction times using List.reverseRecOn with
  | nil => exact ⟨_, rfl, rfl, rfl⟩
  | append_singleton times now ih =>
    obtain ⟨s, hs, ht, hf⟩ := ih
    obtain ⟨s', hs', ht', hf'⟩ := step_synArrival cfg s now
    refine ⟨s', ?_, ht'.trans ht, ?_⟩
    · rw [synRun, List.map_append, List.map_singleton, System.run_append, ← synRun, hs]
      exact hs'
    · rw [hf', hf, synFlows, synFlows, List.foldl_append]
      rfl

theorem accepted_synRun (times : List UInt64) :
    accepted (synRun times) = times.map fun t => ⟨t, synKey, 2⟩ := by
  rw [accepted, synRun, List.filterMap_map, ← List.filterMap_eq_map]
  exact List.filterMap_congr fun t _ => synArrival_accepted t

theorem clockOk_synRun (times : List UInt64) (h : times.Pairwise (· ≤ ·))
    (hpos : ∀ t ∈ times, 0 < t) : ClockOk (synRun times) := by
  have ht : (synRun times).filterMap Step.time? = times := by
    rw [synRun, List.filterMap_map]
    exact List.filterMap_some
  rw [ClockOk, ht]
  exact ⟨h, hpos⟩

/-- A SYN packet of another flow from 10.0.0.1, from port 12346 on. -/
def otherSyn (now : UInt64) : Arrival :=
  ⟨synFrame.set 35 0x3A, ⟨now, now, 0, false, []⟩, .empty⟩

/-- Two SYN packets of one flow and one of the other. -/
def twoFlowSyns : List Step :=
  [.packet (synArrival 5), .packet (otherSyn 6), .packet (synArrival 7)]

/-- The entries of the two flows, the first one read before its second packet. -/
def readBetween : List FlowMapEntry :=
  [⟨synKey, ⟨1, 0, 5, 5⟩⟩, ⟨{ synKey with sport := 12346 }, ⟨1, 0, 6, 6⟩⟩]

/-- At a threshold of 2 both flows are behind the accusation. -/
theorem flagged_has_syns_two : 2 ≤ synPackets twoFlowSyns 0x0100000A 1 8 := by
  obtain ⟨s, hrun, ht⟩ : ∃ s, (System.start (.create 2 1 true 1)).run ⟨100, 1000000000⟩
      (twoFlowSyns ++ []) = some s ∧ s.tracker.tracker = .create 2 1 true 1 := ⟨_, rfl, rfl⟩
  have hclock : ClockOk (twoFlowSyns ++ []) := by
    have htimes : (twoFlowSyns ++ []).filterMap Step.time? = [5, 6, 7] := rfl
    rw [ClockOk, htimes]
    exact ⟨by decide, by simp⟩
  have hread : ReadDuring ⟨100, 1000000000⟩ (.start (.create 2 1 true 1)) twoFlowSyns
      readBetween := by
    intro e he
    simp only [readBetween, List.mem_cons, List.not_mem_nil, or_false] at he
    rcases he with rfl | rfl
    · exact ⟨twoFlowSyns.take 1, _, List.take_prefix 1 _, rfl, rfl⟩
    · exact ⟨twoFlowSyns.take 2, _, List.take_prefix 2 _, rfl, rfl⟩
  apply flagged_has_syns ⟨100, 1000000000⟩ 2 1 1 true twoFlowSyns [] hclock hrun hread (by decide)
  · rw [ht]
    rintro ⟨_, h, -⟩
    cases h
  · rw [ht]
    exact ⟨_, rfl, rfl⟩

end KWatch
