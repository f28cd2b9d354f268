import KWatch.Cli.Listing

/-! # What the stats command prints

The scan of `cmd_stats` starts behind the key 0 instead of at the first key. The kernel answers
with the first key when 0 is not stored, so nothing is missed then. When it is stored, its own line
and the lines before it are missing, and the totals differ from those of the dashboard.
-/

namespace KWatch

/-- The packets of each class, as the dashboard shows them. -/
structure ProtocolBreakdown where
  tcp : UInt64 := 0
  udp : UInt64 := 0
  icmp : UInt64 := 0
  other : UInt64 := 0
  dropped : UInt64 := 0
  deriving DecidableEq, Repr

namespace ProtocolBreakdown

/-- Add a counter to the total of its class. -/
def count (b : ProtocolBreakdown) (e : UInt32 × UInt64) : ProtocolBreakdown :=
  if e.1 = 1 then { b with icmp := b.icmp + e.2 }
  else if e.1 = 6 then { b with tcp := b.tcp + e.2 }
  else if e.1 = 17 then { b with udp := b.udp + e.2 }
  else if e.1 = 0xFFFF then { b with dropped := b.dropped + e.2 }
  else { b with other := b.other + e.2 }

/-- The totals over some counters. -/
def total (entries : List (UInt32 × UInt64)) : ProtocolBreakdown := entries.foldl count {}

end ProtocolBreakdown

/-- The scan starts from no key. -/
def refreshProtocolBreakdown (pktCounts : OpenMap UInt32 UInt64) : ProtocolBreakdown :=
  .total (pktCounts.scan none)

/-- The interface has a live owner, and its counters can be opened. -/
structure Host.ServesStats (host : Host) (ifName : Text) : Prop where
  owner : ∃ o, host.readOwnerState (ownerPidPathForIface ifName) = .ok o ∧ host.isOwnerAlive o = true
  map : 0 ≤ host.bpfObjGet (pinPathForIface ifName ++ "/pkt_counts".toList)

/-- The command prints the heading and then one line for each counter of the map with its value,
in some order, and the totals of what it prints are those of the dashboard. -/
def PrintsAll (counts : Table UInt32 UInt64) (m : OpenMap UInt32 UInt64) (r : ℕ × List Text) : Prop :=
  ∃ printed, r = (0, statsHeading :: printed.map statsLine) ∧ printed.Perm counts.entries ∧
    ProtocolBreakdown.total printed = refreshProtocolBreakdown m

variable {host : Host} {ifName : Text} {counts : Table UInt32 UInt64}

theorem cmdStats_of_serves (h : host.ServesStats ifName) (m : OpenMap UInt32 UInt64) :
    cmdStats host [ifName] m = (0, statsHeading :: (m.scan (some 0)).map statsLine) := by
  obtain ⟨o, ho, halive⟩ := h.owner
  rw [cmdStats, ho]
  dsimp only
  rw [if_pos halive, if_neg (not_lt.mpr h.map)]

/-- Without the key 0 the scan starts at the first key. -/
theorem scan_zero_of_notMem {n : ℕ} (hn : counts.size ≤ n) (h : (0 : UInt32) ∉ counts.keys) :
    (OpenMap.ofTable n counts).scan (some 0) = counts.entries := by
  have hw := OpenMap.walks_ofTable hn
  apply hw.scanFrom (p := []) rfl _ hn
  rw [← hw.first]
  exact Buckets.nextKey_of_notMem h

/-- With the key 0 the scan starts behind it. -/
theorem scan_zero_of_mem {n : ℕ} (hn : counts.size ≤ n) {p s : List (UInt32 × UInt64)} {v : UInt64}
    (h : counts.entries = p ++ (0, v) :: s) :
    (OpenMap.ofTable n counts).scan (some 0) = s := by
  have hw := OpenMap.walks_ofTable hn
  apply hw.scanFrom (p := p ++ [(0, v)]) (by simp [h]) (hw.next p (0, v) s h)
  have hlen : counts.entries.length ≤ n := hn
  rw [h, List.length_append, List.length_cons] at hlen
  change s.length ≤ n
  omega

/-- The stats command prints all counters exactly if none of them has the key 0. -/
theorem stats_prints_all_iff (hserves : host.ServesStats ifName)
    (hroom : counts.size ≤ pktCountsMaxEntries) :
    PrintsAll counts (.ofTable pktCountsMaxEntries counts)
      (cmdStats host [ifName] (.ofTable pktCountsMaxEntries counts)) ↔
      (0 : UInt32) ∉ counts.keys := by
  rw [cmdStats_of_serves hserves]
  constructor
  · rintro ⟨printed, hout, hperm, -⟩ hzero
    obtain ⟨⟨k, v⟩, hm, hk⟩ := List.mem_map.mp hzero
    obtain rfl : k = 0 := hk
    obtain ⟨p, s, hsplit⟩ := List.append_of_mem hm
    rw [scan_zero_of_mem hroom hsplit, Prod.mk.injEq, List.cons.injEq] at hout
    have hlen := congrArg List.length hout.2.2
    rw [List.length_map, List.length_map, hperm.length_eq, hsplit, List.length_append,
      List.length_cons] at hlen
    omega
  · intro hzero
    rw [scan_zero_of_notMem hroom hzero]
    refine ⟨counts.entries, rfl, .refl _, ?_⟩
    rw [refreshProtocolBreakdown, (OpenMap.walks_ofTable hroom).scan_none]

/-- A host with one live owner and a map that can be opened. -/
def servingHost : Host := ⟨fun _ => .ok ⟨5, 7⟩, fun _ => true, fun _ => 3⟩

theorem servesStats_servingHost (ifName : Text) : servingHost.ServesStats ifName :=
  ⟨⟨_, rfl, rfl⟩, by simp [servingHost]⟩

/-- Two counters of which none has the key 0. -/
theorem stats_prints_all_two : PrintsAll ⟨[(6, 10), (17, 2)], by decide⟩
    (.ofTable pktCountsMaxEntries ⟨[(6, 10), (17, 2)], by decide⟩)
    (cmdStats servingHost ["eth0".toList]
      (.ofTable pktCountsMaxEntries ⟨[(6, 10), (17, 2)], by decide⟩)) :=
  (stats_prints_all_iff (servesStats_servingHost _) (by decide)).mpr (by decide)

/-- The counters of ten TCP packets and of two packets with protocol 0, in this order. -/
def countsWithZero : Table UInt32 UInt64 := ⟨[(6, 10), (0, 2)], by decide⟩

/-- The key 0 is the last, so the scan ends before it has printed a line. -/
theorem stats_misses_all : ¬PrintsAll countsWithZero (.ofTable pktCountsMaxEntries countsWithZero)
    (cmdStats servingHost ["eth0".toList] (.ofTable pktCountsMaxEntries countsWithZero)) := by
  rintro ⟨printed, hout, hperm, -⟩
  rw [cmdStats_of_serves (servesStats_servingHost _),
    scan_zero_of_mem (p := [(6, 10)]) (v := 2) (s := []) (by decide) rfl, Prod.mk.injEq,
    List.cons.injEq] at hout
  have hnil : printed = [] := List.map_eq_nil_iff.mp hout.2.2.symm
  have hlen := hperm.length_eq
  rw [hnil] at hlen
  exact absurd hlen (by decide)

end KWatch
