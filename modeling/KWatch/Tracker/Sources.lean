import KWatch.Tracker.Blocks

/-! # One source at a time

A source that is not in the table counts as one with default statistics. With that reading every
operation of the tracker is a function on the statistics of each source, and the eviction resets
some of them to the default.
-/

namespace KWatch.FlowTracker

/-- A pass over the table that leaves the default alone. -/
theorem statsOf_mapVals (ipStats : Table UInt32 IpStats) {f : IpStats → IpStats} (hf : f {} = {})
    (ip : UInt32) : statsOf (ipStats.mapVals fun _ => f) ip = f (statsOf ipStats ip) := by
  unfold statsOf
  rw [Table.get?_mapVals]
  cases ipStats.get? ip with
  | none => exact hf.symm
  | some s => rfl

theorem startBlock_default (autoBlock : Bool) (now : UInt64) : startBlock autoBlock now {} = {} := by
  simp [startBlock, shouldBlock]

theorem releaseBlock_default (ttl now : UInt64) : releaseBlock ttl now {} = {} := by
  simp [releaseBlock, isExpired]

theorem resetStale_default (window now gen : UInt64) : resetStale window now gen {} = {} := by
  unfold resetStale
  split_ifs <;> rfl

/-! ### The operations -/

theorem statsOf_processEvent (e : KwatchEvent) (t : FlowTracker) (ip : UInt32) :
    statsOf (t.processEvent e).ipStats ip =
      if ip = e.srcIp then noteEvent e (statsOf t.ipStats ip) else statsOf t.ipStats ip := by
  unfold statsOf
  rw [processEvent_get?]
  split <;> rfl

/-- What a snapshot makes of the statistics of a source with the given aggregate. -/
def snapshotStats (t : FlowTracker) (now : UInt64) (g : Option FlowAggregate) (s : IpStats) :
    IpStats :=
  match g with
  | some g => applyAggregate t.synThreshold (nextGeneration t.snapshotGeneration) g s
  | none => resetStale t.synWindowNs now (nextGeneration t.snapshotGeneration) s

theorem statsOf_processFlowSnapshot (entries : List FlowMapEntry) (now : UInt64) (t : FlowTracker)
    (ip : UInt32) : statsOf (t.processFlowSnapshot entries now).ipStats ip =
      snapshotStats t now (mergeAll (liveEntries t.synWindowNs now entries ip))
        (statsOf t.ipStats ip) := by
  unfold statsOf
  rw [processFlowSnapshot_get?]
  cases mergeAll (liveEntries t.synWindowNs now entries ip) with
  | some g => rfl
  | none =>
    cases t.ipStats.get? ip with
    | none => exact (resetStale_default ..).symm
    | some s => rfl

/-- The eviction forgets a source only if it may be evicted. -/
theorem statsOf_evictIdle (now : UInt64) (t : FlowTracker) (ip : UInt32) :
    statsOf (evictIdle now t).ipStats ip = statsOf t.ipStats ip ∨
      isEvictable now (statsOf t.ipStats ip) = true ∧ statsOf (evictIdle now t).ipStats ip = {} := by
  unfold statsOf
  rw [evictIdle_get?]
  split
  · cases t.ipStats.get? ip with
    | none => exact Or.inl rfl
    | some s =>
      rw [Option.filter_some]
      cases he : isEvictable now s with
      | false => exact Or.inl rfl
      | true => exact Or.inr ⟨he, rfl⟩
  · exact Or.inl rfl

theorem statsOf_getExpiredBlocks (now : UInt64) (t : FlowTracker) (ip : UInt32) :
    statsOf (t.getExpiredBlocks now).1.ipStats ip =
      releaseBlock t.autoBlockTtlNs now (statsOf t.ipStats ip) :=
  statsOf_mapVals _ (releaseBlock_default ..) ip

/-! ### The answers -/

theorem flagged_iff_statsOf {t : FlowTracker} {ip : UInt32} :
    t.Flagged ip ↔ (statsOf t.ipStats ip).isFlagged = true := by
  unfold Flagged statsOf
  cases t.ipStats.get? ip with
  | none => simp
  | some s => simp

theorem mem_tick_iff_statsOf {now : UInt64} {t : FlowTracker} {ip : UInt32} :
    ip ∈ (t.tickAndGetBlocks now).2 ↔
      shouldBlock t.autoBlockEnabled (statsOf t.ipStats ip) = true := by
  rw [mem_tick_blocks]
  unfold statsOf
  cases t.ipStats.get? ip with
  | none => simp [shouldBlock]
  | some s => simp

theorem mem_expired_iff_statsOf {now : UInt64} {t : FlowTracker} {ip : UInt32} :
    ip ∈ (t.getExpiredBlocks now).2 ↔
      isExpired t.autoBlockTtlNs now (statsOf t.ipStats ip) = true := by
  rw [mem_expired]
  unfold statsOf
  cases t.ipStats.get? ip with
  | none => simp [isExpired]
  | some s => simp

end KWatch.FlowTracker
