import KWatch.Tracker.Eviction

/-! # Releases are final

A released source is unflagged, and only live entries can flag it again. When the block outlasted
the window, the entries seen before the block are not live any more at the next snapshot. The time
to live is added to the start of a block in 64 bits: a block that starts too late for that ends at
once, while the entries behind it are still live.
-/

namespace KWatch

/-- Calls of the dashboard: ticks at increasing times, and events anywhere between their calls. -/
structure InTicks (ticks : List TickInput) (calls : List TrackerCall) : Prop where
  calls_eq : (calls.filter fun c => !c.isEvent) = ticks.flatMap TickInput.calls
  increasing : ticks.Pairwise fun i j => i.now < j.now

/-- No snapshot shows a TCP entry of a source that was seen after a time. -/
def NotSeenAfter (ip : UInt32) (b : UInt64) (calls : List TrackerCall) : Prop :=
  ∀ entries now, .processFlowSnapshot entries now ∈ calls →
    ∀ e ∈ entries, e.key.srcIp = ip → e.key.protocol = 6 → e.stats.lastSeenNs ≤ b

/-- A snapshot that comes after a release comes at a later time. -/
def LaterThanRelease (c d : TrackerCall) : Prop :=
  ∀ r entries now, c = .getExpiredBlocks r → d = .processFlowSnapshot entries now → r < now

theorem InTicks.laterThanRelease {ticks : List TickInput} {calls : List TrackerCall}
    (h : InTicks ticks calls) : calls.Pairwise LaterThanRelease := by
  have hticks : (ticks.flatMap TickInput.calls).Pairwise LaterThanRelease := by
    rw [List.pairwise_flatMap]
    constructor
    · rintro i -
      cases hs : i.snapshot <;> simp [TickInput.calls, hs, LaterThanRelease]
    · apply h.increasing.imp
      rintro i j hij c hc d hd r entries now rfl rfl
      cases hs : i.snapshot <;> cases hs' : j.snapshot <;>
        simp [TickInput.calls, hs, hs'] at hc hd
      all_goals rw [hc, hd.2]; exact hij
  rw [← h.calls_eq, List.pairwise_filter] at hticks
  apply hticks.imp
  rintro c d hcd r entries now rfl rfl
  exact hcd rfl rfl r entries now rfl rfl

namespace LoggedTracker

open FlowTracker

/-- Whenever a source is released whose block started at a time, it is not flagged, and no tick
returns it, until a snapshot shows that it was seen after that time. -/
def ReleasesFinal (t : FlowTracker) (calls : List TrackerCall) : Prop :=
  ∀ past r later ip b, past ++ .getExpiredBlocks r :: later <+: calls →
    (run t past).tracker.blockStart ip = some b →
    ip ∈ (getExpiredBlocks r (run t past).tracker).2 → NotSeenAfter ip b later →
      ¬(run t (past ++ .getExpiredBlocks r :: later)).tracker.Flagged ip ∧
      ∀ now, ip ∉ (tickAndGetBlocks now
        (run t (past ++ .getExpiredBlocks r :: later)).tracker).2

/-- When a tick finds a source to block, the end of the block is a time of 64 bits. -/
def BlocksEnd (t : FlowTracker) (calls : List TrackerCall) : Prop :=
  ∀ past now, past ++ [.tickAndGetBlocks now] <+: calls → ∀ ip,
    shouldBlock (run t past).tracker.autoBlockEnabled
        (statsOf (run t past).tracker.ipStats ip) = true →
      now.toNat + t.autoBlockTtlNs.toNat < 2 ^ 64

variable {t : FlowTracker} {s : LoggedTracker} {ip : UInt32} {b : UInt64}

/-! ### One call -/

theorem call_config (s : LoggedTracker) (c : TrackerCall) :
    (s.call c).tracker.synWindowNs = s.tracker.synWindowNs ∧
      (s.call c).tracker.autoBlockTtlNs = s.tracker.autoBlockTtlNs := by
  cases c <;> exact ⟨rfl, rfl⟩

theorem run_config (t : FlowTracker) (calls : List TrackerCall) :
    (run t calls).tracker.synWindowNs = t.synWindowNs ∧
      (run t calls).tracker.autoBlockTtlNs = t.autoBlockTtlNs := by
  induction calls using List.reverseRecOn with
  | nil => exact ⟨rfl, rfl⟩
  | append_singleton past c ih =>
    rw [run_append, (call_config ..).1, (call_config ..).2]
    exact ih

/-- A block after a call was there before, or the call is the tick that returned its address. -/
theorem blockStart_call (c : TrackerCall) (h : (s.call c).tracker.blockStart ip = some b) :
    s.tracker.blockStart ip = some b ∨
      c = .tickAndGetBlocks b ∧ ip ∈ (tickAndGetBlocks b s.tracker).2 := by
  cases c with
  | processEvent e => exact Or.inl (((processEvent_keepsBlock e s.tracker ip).start).symm.trans h)
  | processFlowSnapshot entries now =>
    have hk := (nextStats_keepsBlock s.tracker now (s.tracker.ipStats.get? ip)
      (mergeAll (liveEntries s.tracker.synWindowNs now entries ip))).start
    rw [← processFlowSnapshot_get?] at hk
    exact Or.inl (hk.symm.trans h)
  | tickAndGetBlocks now =>
    have hs := (tick_blockStart now s.tracker ip).1.symm.trans h
    split at hs
    · next hm =>
      cases hs
      exact Or.inr ⟨rfl, hm⟩
    · exact Or.inl hs
  | getExpiredBlocks now =>
    have hs := (expired_blockStart now s.tracker ip).symm.trans h
    split at hs
    · cases hs
    · exact Or.inl hs

/-- Only live entries flag a source. -/
theorem not_flagged_call (h : ¬s.tracker.Flagged ip) (c : TrackerCall)
    (hc : ∀ entries now, c = .processFlowSnapshot entries now →
      liveEntries s.tracker.synWindowNs now entries ip = []) : ¬(s.call c).tracker.Flagged ip := by
  rw [flagged_iff_statsOf, Bool.not_eq_true] at h ⊢
  cases c with
  | processEvent e =>
    rw [call, statsOf_processEvent]
    split
    · rw [(noteEvent_flags e _).2.1]
      exact h
    · exact h
  | processFlowSnapshot entries now =>
    rw [call, statsOf_processFlowSnapshot, mergeAll_eq_none_iff.mpr (hc entries now rfl),
      snapshotStats]
    exact resetStale_not_flagged h ..
  | tickAndGetBlocks now =>
    have hstart : (startBlock s.tracker.autoBlockEnabled now
        (statsOf s.tracker.ipStats ip)).isFlagged = false := by
      unfold startBlock
      split <;> exact h
    have hpass := statsOf_mapVals s.tracker.ipStats
      (startBlock_default s.tracker.autoBlockEnabled now) ip
    rw [call, tickAndGetBlocks_eq]
    rcases statsOf_evictIdle now (s.tracker.tickWithoutEviction now).1 ip with hk | ⟨-, hk⟩
    · rw [hk, tickWithoutEviction, hpass]
      exact hstart
    · rw [hk]
  | getExpiredBlocks now =>
    rw [call, statsOf_getExpiredBlocks]
    unfold releaseBlock
    split
    · rfl
    · exact h

theorem not_flagged_calls {calls : List TrackerCall} (h : ¬s.tracker.Flagged ip)
    (hc : ∀ entries now, .processFlowSnapshot entries now ∈ calls →
      liveEntries s.tracker.synWindowNs now entries ip = []) :
    ¬(calls.foldl call s).tracker.Flagged ip := by
  induction calls generalizing s with
  | nil => exact h
  | cons c calls ih =>
    rw [List.foldl_cons]
    apply ih
    · apply not_flagged_call h
      rintro entries now rfl
      exact hc entries now List.mem_cons_self
    · intro entries now hm
      rw [(call_config s c).1]
      exact hc entries now (List.mem_cons_of_mem c hm)

/-- A released source is not flagged. -/
theorem not_flagged_of_released {r : UInt64}
    (h : ip ∈ (getExpiredBlocks r s.tracker).2) :
    ¬(s.call (.getExpiredBlocks r)).tracker.Flagged ip := by
  rw [flagged_iff_statsOf, call, statsOf_getExpiredBlocks, releaseBlock,
    if_pos (mem_expired_iff_statsOf.mp h)]
  simp

/-- A block is released when its time to live has passed, if the end of the block is a time. -/
theorem ttl_passed_of_released {r : UInt64} (hb : s.tracker.blockStart ip = some b)
    (hfit : b.toNat + s.tracker.autoBlockTtlNs.toNat < 2 ^ 64)
    (hm : ip ∈ (getExpiredBlocks r s.tracker).2) :
    b.toNat + s.tracker.autoBlockTtlNs.toNat ≤ r.toNat := by
  obtain ⟨b', hb', hle⟩ := mem_expired_iff.mp hm
  rw [hb, Option.some.injEq] at hb'
  subst hb'
  rwa [UInt64.le_iff_toNat_le, UInt64.toNat_add, Nat.mod_eq_of_lt hfit] at hle

/-! ### Entries from before the block -/

/-- Once a time to live that outlasts the window is over, an entry from before is not live. -/
theorem liveEntries_eq_nil {window ttl r now : UInt64} {entries : List FlowMapEntry}
    (hw : window.toNat ≤ ttl.toNat) (hr : b.toNat + ttl.toNat ≤ r.toNat) (hnow : r < now)
    (hold : ∀ e ∈ entries, e.key.srcIp = ip → e.key.protocol = 6 → e.stats.lastSeenNs ≤ b) :
    liveEntries window now entries ip = [] := by
  rw [liveEntries, List.filter_eq_nil_iff]
  intro e he hlive
  rw [Bool.and_eq_true, beq_iff_eq, isLive_iff] at hlive
  obtain ⟨⟨⟨hproto, -⟩, hage, -⟩, hip⟩ := hlive
  have hseen := UInt64.le_iff_toNat_le.mp (hold e he hip hproto)
  have hlater := UInt64.lt_iff_toNat_lt.mp hnow
  omega

/-! ### Whole runs -/

/-- What `BlocksEnd` says about the blocks of a state. -/
theorem blockStart_fits {calls past : List TrackerCall} (hempty : t.ipStats = .empty)
    (h : BlocksEnd t calls) (hp : past <+: calls)
    (hb : (run t past).tracker.blockStart ip = some b) :
    b.toNat + t.autoBlockTtlNs.toNat < 2 ^ 64 := by
  induction past using List.reverseRecOn with
  | nil =>
    rw [run, List.foldl_nil, blockStart, hempty] at hb
    cases hb
  | append_singleton past c ih =>
    rw [run_append] at hb
    rcases blockStart_call c hb with hb | ⟨rfl, hm⟩
    · exact ih ((List.prefix_append past [c]).trans hp) hb
    · exact h past b hp ip (mem_tick_iff_statsOf.mp hm)

/-- In ticks at increasing times, with a time to live at least as long as the window, every release
is final as long as the end of every block that starts is a time of 64 bits. -/
theorem releases_final (threshold : UInt32) {window : UInt32} (autoBlock : Bool) {ttl : UInt32}
    (httl : window ≤ ttl) {ticks : List TickInput} {calls : List TrackerCall}
    (hticks : InTicks ticks calls) (hend : BlocksEnd (.create threshold window autoBlock ttl) calls) :
    ReleasesFinal (.create threshold window autoBlock ttl) calls := by
  intro past r later ip b hp hb hm hold
  suffices h : ¬(run (.create threshold window autoBlock ttl)
      (past ++ .getExpiredBlocks r :: later)).tracker.Flagged ip by
    refine ⟨h, fun now hn => ?_⟩
    rw [mem_tick_iff_statsOf, shouldBlock, Bool.and_eq_true, Bool.and_eq_true] at hn
    exact h (flagged_iff_statsOf.mpr hn.1.1)
  have hpast : past <+: calls := (List.prefix_append past _).trans hp
  have hfit := blockStart_fits rfl hend hpast hb
  have hw : (window.toUInt64 * 1000000000).toNat ≤ (ttl.toUInt64 * 1000000000).toNat := by
    rw [toNat_seconds, toNat_seconds]
    exact Nat.mul_le_mul_right _ (UInt32.le_iff_toNat_le.mp httl)
  rw [← (run_config _ past).2] at hfit
  have hr := ttl_passed_of_released hb hfit hm
  rw [(run_config _ past).2] at hr
  have hlater := hticks.laterThanRelease.sublist hp.sublist
  rw [List.pairwise_append, List.pairwise_cons] at hlater
  rw [run, List.foldl_append, List.foldl_cons, ← run]
  apply not_flagged_calls (not_flagged_of_released hm)
  intro entries now hs
  rw [(call_config ..).1, (run_config ..).1]
  exact liveEntries_eq_nil hw hr (hlater.2.1.1 _ hs r entries now rfl rfl) (hold entries now hs)

theorem blocksEnd_of_early {calls : List TrackerCall}
    (h : ∀ c ∈ calls, c.time.toNat + t.autoBlockTtlNs.toNat < 2 ^ 64) : BlocksEnd t calls := by
  intro past now hp _ _
  exact h (.tickAndGetBlocks now) (hp.subset (by simp))

/-- The ticks at two times, both with a snapshot of the same SYN flow. -/
def twoTicks (syn : FlowMapEntry) (first second : UInt64) : List TickInput :=
  [⟨some [syn], first⟩, ⟨some [syn], second⟩]

theorem inTicks_twoTicks (syn : FlowMapEntry) {first second : UInt64} (h : first < second) :
    InTicks (twoTicks syn first second) ((twoTicks syn first second).flatMap TickInput.calls) := by
  constructor
  · rfl
  · simpa [twoTicks] using h

/-- A SYN flow that was seen at time 5. -/
def oldFlow : FlowMapEntry := ⟨⟨7, 9, 1, 2, 6⟩, ⟨3, 0, 5, 5⟩⟩

/-- Its source is blocked at time 6, and the block is over at the second tick. -/
def untilRelease : List TrackerCall :=
  [.processFlowSnapshot [oldFlow] 6, .tickAndGetBlocks 6, .getExpiredBlocks 6,
    .processFlowSnapshot [oldFlow] 1000000006, .tickAndGetBlocks 1000000006]

/-- A third tick at which the flow is still in the map. -/
def afterRelease : List TrackerCall :=
  [.processFlowSnapshot [oldFlow] 1000000007, .tickAndGetBlocks 1000000007,
    .getExpiredBlocks 1000000007]

theorem releases_final_flood :
    7 ∈ (getExpiredBlocks 1000000006 (run (.create 1 1 true 1) untilRelease).tracker).2 ∧
      ¬(run (.create 1 1 true 1)
        (untilRelease ++ .getExpiredBlocks 1000000006 :: afterRelease)).tracker.Flagged 7 := by
  have hticks : InTicks (twoTicks oldFlow 6 1000000006 ++ [⟨some [oldFlow], 1000000007⟩])
      (untilRelease ++ .getExpiredBlocks 1000000006 :: afterRelease) := by
    constructor
    · rfl
    · simp [twoTicks]
  have hend : BlocksEnd (.create 1 1 true 1)
      (untilRelease ++ .getExpiredBlocks 1000000006 :: afterRelease) := by
    apply blocksEnd_of_early
    decide +kernel
  have hold : NotSeenAfter 7 6 afterRelease := by
    intro entries now hs e he _ _
    simp only [afterRelease, List.mem_cons, TrackerCall.processFlowSnapshot.injEq, reduceCtorEq,
      or_false, List.not_mem_nil] at hs
    rw [hs.1, List.mem_singleton] at he
    rw [he]
    decide
  have hreleased :
      7 ∈ (getExpiredBlocks 1000000006 (run (.create 1 1 true 1) untilRelease).tracker).2 := by
    decide +kernel
  refine ⟨hreleased, ?_⟩
  exact (releases_final 1 true (by decide) hticks hend untilRelease 1000000006 afterRelease 7 6
    List.prefix_rfl (by decide +kernel) hreleased hold).1

/-- A SYN flow that was seen shortly before the end of the 64-bit clock. -/
def lateFlow : FlowMapEntry := ⟨⟨7, 9, 1, 2, 6⟩, ⟨3, 0, 0xFFFFFFFFFFFFFFFD, 0xFFFFFFFFFFFFFFFD⟩⟩

/-- A block that starts there is released at once, and the next snapshot flags its source for the
packets from before the block. -/
theorem late_release_not_final :
    InTicks (twoTicks lateFlow 0xFFFFFFFFFFFFFFFE 0xFFFFFFFFFFFFFFFF)
      ((twoTicks lateFlow 0xFFFFFFFFFFFFFFFE 0xFFFFFFFFFFFFFFFF).flatMap TickInput.calls) ∧
    ¬ReleasesFinal (.create 1 1 true 1)
      ((twoTicks lateFlow 0xFFFFFFFFFFFFFFFE 0xFFFFFFFFFFFFFFFF).flatMap TickInput.calls) := by
  constructor
  · exact inTicks_twoTicks lateFlow (by decide)
  · intro h
    have hlast : NotSeenAfter 7 0xFFFFFFFFFFFFFFFE
        [.processFlowSnapshot [lateFlow] 0xFFFFFFFFFFFFFFFF] := by
      intro entries now hs e he _ _
      obtain ⟨rfl, -⟩ := TrackerCall.processFlowSnapshot.inj (List.mem_singleton.mp hs)
      rw [List.mem_singleton.mp he]
      decide
    have hfinal := (h [.processFlowSnapshot [lateFlow] 0xFFFFFFFFFFFFFFFE,
      .tickAndGetBlocks 0xFFFFFFFFFFFFFFFE] 0xFFFFFFFFFFFFFFFE
      [.processFlowSnapshot [lateFlow] 0xFFFFFFFFFFFFFFFF] 7 0xFFFFFFFFFFFFFFFE
      ⟨_, rfl⟩ (by decide +kernel) (by decide +kernel) hlast).1
    exact hfinal (flagged_iff_statsOf.mpr (by decide +kernel))

end LoggedTracker

end KWatch
