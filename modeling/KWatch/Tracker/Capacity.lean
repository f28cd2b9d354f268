import KWatch.Tracker.Eviction

/-! # The size of the source table

A tick evicts the idle sources once the table holds more than `kMaxIpStats`, but it keeps every
source that is flagged, blocked or recently active. There is no last resort for these, so the table
fits after a tick exactly if few enough sources had to be kept.
-/

namespace KWatch

namespace FlowTracker

/-- The sources that an eviction keeps: flagged, blocked, or active in the last minute. -/
def heldSources (now : UInt64) (t : FlowTracker) : ℕ :=
  t.ipStats.entries.countP fun e => !isEvictable now e.2

theorem size_filter (ipStats : Table UInt32 IpStats) (p : UInt32 → IpStats → Bool) :
    (ipStats.filter p).size = ipStats.entries.countP fun e => p e.1 e.2 :=
  (List.countP_eq_length_filter ..).symm

/-- A block that starts keeps the source in the table, as its flag did before. -/
theorem isEvictable_startBlock (autoBlock : Bool) (now : UInt64) (s : IpStats) :
    isEvictable now (startBlock autoBlock now s) = isEvictable now s := by
  unfold startBlock
  split
  · next h =>
    simp only [shouldBlock, Bool.and_eq_true] at h
    simp [isEvictable, h.1.1]
  · rfl

theorem heldSources_tickWithoutEviction (now : UInt64) (t : FlowTracker) :
    heldSources now (t.tickWithoutEviction now).1 = heldSources now t := by
  have hpass : ((fun e : UInt32 × IpStats => !isEvictable now e.2) ∘
      fun e : UInt32 × IpStats => (e.1, startBlock t.autoBlockEnabled now e.2)) =
      fun e => !isEvictable now e.2 := by
    ext e
    rw [Function.comp_apply, isEvictable_startBlock]
  rw [heldSources, tickWithoutEviction, Table.mapVals, List.countP_map, hpass, heldSources]

theorem size_evictIdle (now : UInt64) (t : FlowTracker) :
    (evictIdle now t).ipStats.size =
      if kMaxIpStats < t.ipStats.size then heldSources now t else t.ipStats.size := by
  simp only [evictIdle]
  split
  · exact size_filter ..
  · rfl

/-- The table fits after a tick exactly if the sources to be kept fit before it. -/
theorem size_tick_le_iff (now : UInt64) (t : FlowTracker) :
    (t.tickAndGetBlocks now).1.ipStats.size ≤ kMaxIpStats ↔ heldSources now t ≤ kMaxIpStats := by
  have hheld : heldSources now t ≤ t.ipStats.size := List.countP_le_length
  have hsize : (t.tickWithoutEviction now).1.ipStats.size = t.ipStats.size := by
    simp [tickWithoutEviction, Table.mapVals, Table.size]
  rw [tickAndGetBlocks_eq, size_evictIdle, heldSources_tickWithoutEviction, hsize]
  split
  · rfl
  · next hle =>
    rw [not_lt] at hle
    exact ⟨fun _ => hheld.trans hle, fun _ => hle⟩

end FlowTracker

namespace LoggedTracker

open FlowTracker

/-- After every tick the source table holds at most `kMaxIpStats` sources. -/
def FitsAfterTicks (t : FlowTracker) (calls : List TrackerCall) : Prop :=
  ∀ past now, past ++ [.tickAndGetBlocks now] <+: calls →
    (run t (past ++ [.tickAndGetBlocks now])).tracker.ipStats.size ≤ kMaxIpStats

/-- Before every tick at most `kMaxIpStats` sources are flagged, blocked or recently active. -/
def FewHeld (t : FlowTracker) (calls : List TrackerCall) : Prop :=
  ∀ past now, past ++ [.tickAndGetBlocks now] <+: calls →
    heldSources now (run t past).tracker ≤ kMaxIpStats

/-- The source table fits after every tick of a run exactly if no tick finds too many sources that
are flagged, blocked or recently active. -/
theorem fitsAfterTicks_iff (threshold window : UInt32) (autoBlock : Bool) (ttl : UInt32)
    (calls : List TrackerCall) : FitsAfterTicks (.create threshold window autoBlock ttl) calls ↔
      FewHeld (.create threshold window autoBlock ttl) calls := by
  constructor
  · intro h past now hp
    have hfit := h past now hp
    rw [run_append] at hfit
    exact (size_tick_le_iff ..).mp hfit
  · intro h past now hp
    rw [run_append]
    exact (size_tick_le_iff ..).mpr (h past now hp)

/-! ### A flood with spoofed sources -/

/-- A sampled event from a source at time 1. -/
def eventFrom (i : ℕ) : TrackerCall :=
  .processEvent ⟨1, UInt32.ofNat i, 9, 1, 2, 17, 0, 64, 0, 0, 0⟩

/-- One event from each of so many sources. -/
def spoofedEvents (n : ℕ) : List TrackerCall := (List.range n).map eventFrom

/-- Each of them is in the table with its recent event. -/
theorem run_spoofedEvents (t : FlowTracker) (hempty : t.ipStats = .empty) {n : ℕ}
    (hn : n ≤ 2 ^ 32) : (run t (spoofedEvents n)).tracker.ipStats.entries =
      (List.range n).map fun i => (UInt32.ofNat i, { lastEventNs := 1, lastTtl := 64 }) := by
  induction n with
  | zero =>
    rw [spoofedEvents, List.range_zero, List.map_nil, run, List.foldl_nil, hempty]
    rfl
  | succ n ih =>
    have ih := ih (by omega)
    have hnew : UInt32.ofNat n ∉ (run t (spoofedEvents n)).tracker.ipStats.keys := by
      rw [Table.keys, ih, List.map_map, List.mem_map]
      rintro ⟨i, hi, he⟩
      have hlt := List.mem_range.mp hi
      have hval := congrArg UInt32.toNat he
      simp only [Function.comp_apply, UInt32.toNat_ofNat'] at hval
      omega
    have hstats : statsOf (run t (spoofedEvents n)).tracker.ipStats (UInt32.ofNat n) = {} := by
      rw [statsOf, Table.get?_eq_none_iff.mpr hnew]
      rfl
    rw [spoofedEvents, List.range_succ, List.map_append, List.map_singleton, ← spoofedEvents,
      run_append]
    simp only [eventFrom, call, processEvent]
    rw [Table.entries_set_of_notMem hnew, ih, hstats, List.map_append]
    rfl

theorem heldSources_spoofedEvents (t : FlowTracker) (hempty : t.ipStats = .empty) {n : ℕ}
    (hn : n ≤ 2 ^ 32) : heldSources 2 (run t (spoofedEvents n)).tracker = n := by
  have hkeep : isEvictable 2 { lastEventNs := 1, lastTtl := 64 } = false := by decide +kernel
  rw [heldSources, run_spoofedEvents t hempty hn, List.countP_map]
  calc _ = (List.range n).length := by
        apply List.countP_eq_length.mpr
        intro i _
        simp [hkeep]
    _ = n := List.length_range

/-- After an event from each of 16385 sources the table holds all of them, and the tick that comes
next keeps them. -/
theorem spoofed_sources_overflow : ¬FitsAfterTicks (.create 100 10 true 300)
    (spoofedEvents 16385 ++ [.tickAndGetBlocks 2]) := by
  intro h
  have hfit := h (spoofedEvents 16385) 2 List.prefix_rfl
  rw [run_append] at hfit
  have hheld := (size_tick_le_iff ..).mp hfit
  rw [heldSources_spoofedEvents _ rfl (by norm_num), kMaxIpStats] at hheld
  omega

end LoggedTracker

end KWatch
