import KWatch.Xdp.Program

/-! # The flow tracker

The tracker of `src/core/flow_tracker.cpp`: it sums snapshot entries per source, flags sources
with too many unanswered SYNs, and hands out addresses to block and to unblock. A hash map is
a table here, so its iteration order is that of first insertion.
-/

namespace KWatch

structure FlowMapEntry where
  key : KwatchFlowKey
  stats : KwatchFlowStats
  deriving DecidableEq, Repr

structure FlowAggregate where
  srcIp : UInt32
  synCount : UInt32
  ackCount : UInt32
  lastSeenNs : UInt64
  deriving DecidableEq, Repr

structure IpStats where
  synCount : UInt32 := 0
  ackCount : UInt32 := 0
  lastEventNs : UInt64 := 0
  blockStartNs : UInt64 := 0
  snapshotGeneration : UInt64 := 0
  isFlagged : Bool := false
  isBlocked : Bool := false
  lastTtl : UInt8 := 0
  deriving DecidableEq, Repr

/-- The tracker's own flow key. No operation inserts one, only the eviction reads them. -/
structure FlowKey where
  srcIp : UInt32
  dstIp : UInt32
  srcPort : UInt16
  dstPort : UInt16
  deriving DecidableEq, Repr

structure FlowStats where
  synCount : UInt32
  ackCount : UInt32
  firstSeenNs : UInt64
  lastSeenNs : UInt64
  deriving DecidableEq, Repr

def kMaxFlows : ℕ := 65536
def kMaxIpStats : ℕ := 16384
def kFlowIdleTtlNs : UInt64 := 60 * 1000000000

structure FlowTracker where
  synThreshold : UInt32
  synWindowNs : UInt64
  autoBlockEnabled : Bool
  autoBlockTtlNs : UInt64
  flows : Table FlowKey FlowStats
  ipStats : Table UInt32 IpStats
  snapshotGeneration : UInt64

namespace FlowTracker

def create (threshold window : UInt32) (autoBlock : Bool) (blockTtl : UInt32) : FlowTracker where
  synThreshold := threshold
  synWindowNs := window.toUInt64 * 1000000000
  autoBlockEnabled := autoBlock
  autoBlockTtlNs := blockTtl.toUInt64 * 1000000000
  flows := .empty
  ipStats := .empty
  snapshotGeneration := 0

/-- A number of whole seconds does not overflow as nanoseconds. -/
theorem toNat_seconds (n : UInt32) : (n.toUInt64 * 1000000000).toNat = n.toNat * 1000000000 := by
  have hn := n.toNat_lt
  have hc : (1000000000 : UInt64).toNat = 1000000000 := rfl
  rw [UInt64.toNat_mul, UInt32.toNat_toUInt64, hc]
  omega

/-- The statistics of a source, as `operator[]` finds or creates them. -/
def statsOf (ipStats : Table UInt32 IpStats) (ip : UInt32) : IpStats := (ipStats.get? ip).getD {}

def noteEvent (e : KwatchEvent) (s : IpStats) : IpStats :=
  let s := if e.ttl ≠ 0 then { s with lastTtl := e.ttl } else s
  if s.lastEventNs < e.tsNs then { s with lastEventNs := e.tsNs } else s

def processEvent (e : KwatchEvent) (t : FlowTracker) : FlowTracker :=
  { t with ipStats := t.ipStats.set e.srcIp (noteEvent e (statsOf t.ipStats e.srcIp)) }

/-! ### Snapshots -/

/-- Whether a time lies more than the window before `now`. -/
def outOfWindow (window now ns : UInt64) : Bool := ns < now && window < now - ns

/-- The filters of the aggregation loop. -/
def isLive (window now : UInt64) (e : FlowMapEntry) : Bool :=
  !(e.key.protocol != 6 || e.stats.lastSeenNs == 0) &&
    !outOfWindow window now e.stats.lastSeenNs &&
    !(e.stats.firstSeenNs != 0 && outOfWindow window now e.stats.firstSeenNs)

/-- The scratch vector of aggregates and the index from a source to its position. -/
structure Aggregates where
  index : Table UInt32 ℕ
  scratch : List FlowAggregate

def newAggregate (e : FlowMapEntry) : FlowAggregate :=
  ⟨e.key.srcIp, e.stats.synCount, e.stats.ackCount, e.stats.lastSeenNs⟩

def addEntry (e : FlowMapEntry) (g : FlowAggregate) : FlowAggregate :=
  { g with
    synCount := g.synCount + e.stats.synCount
    ackCount := g.ackCount + e.stats.ackCount
    lastSeenNs := if g.lastSeenNs < e.stats.lastSeenNs then e.stats.lastSeenNs else g.lastSeenNs }

def aggregateEntry (a : Aggregates) (e : FlowMapEntry) : Aggregates :=
  match a.index.get? e.key.srcIp with
  | none => ⟨a.index.set e.key.srcIp a.scratch.length, a.scratch ++ [newAggregate e]⟩
  | some i => ⟨a.index, a.scratch.modify i (addEntry e)⟩

def aggregate (window now : UInt64) (entries : List FlowMapEntry) : Aggregates :=
  entries.foldl (fun a e => if isLive window now e then aggregateEntry a e else a) ⟨.empty, []⟩

def nextGeneration (g : UInt64) : UInt64 := if g + 1 = 0 then g + 1 + 1 else g + 1

def unmatchedSyns (syn ack : UInt32) : UInt32 := if ack < syn then syn - ack else 0

def applyAggregate (threshold : UInt32) (gen : UInt64) (g : FlowAggregate) (s : IpStats) :
    IpStats :=
  { s with
    synCount := g.synCount
    ackCount := g.ackCount
    lastEventNs := g.lastSeenNs
    snapshotGeneration := gen
    isFlagged := s.isFlagged || threshold ≤ unmatchedSyns g.synCount g.ackCount }

/-- The second pass over the table: a source not seen for a window is cleared. -/
def resetStale (window now gen : UInt64) (s : IpStats) : IpStats :=
  if s.snapshotGeneration == gen || s.isBlocked then s
  else if s.lastEventNs == 0 || outOfWindow window now s.lastEventNs then
    { s with synCount := 0, ackCount := 0, isFlagged := false }
  else s

def processFlowSnapshot (entries : List FlowMapEntry) (now : UInt64) (t : FlowTracker) :
    FlowTracker :=
  let aggregates := aggregate t.synWindowNs now entries
  let gen := nextGeneration t.snapshotGeneration
  let updated := aggregates.scratch.foldl (fun ipStats g =>
    ipStats.set g.srcIp (applyAggregate t.synThreshold gen g (statsOf ipStats g.srcIp))) t.ipStats
  { t with
    snapshotGeneration := gen
    ipStats := updated.mapVals fun _ s => resetStale t.synWindowNs now gen s }

/-! ### Blocking -/

def evictFlows (now : UInt64) (flows : Table FlowKey FlowStats) : Table FlowKey FlowStats :=
  let kept := if kMaxFlows / 2 < flows.size then
    flows.filter fun _ s => !(s.lastSeenNs + kFlowIdleTtlNs < now) else flows
  if kMaxFlows < kept.size then .empty else kept

/-- Idle, unflagged and unblocked sources may be evicted. -/
def isEvictable (now : UInt64) (s : IpStats) : Bool :=
  s.lastEventNs + kFlowIdleTtlNs < now && !s.isFlagged && !s.isBlocked

def evictIdle (now : UInt64) (t : FlowTracker) : FlowTracker :=
  { t with
    flows := evictFlows now t.flows
    ipStats := if kMaxIpStats < t.ipStats.size then
      t.ipStats.filter fun _ s => !isEvictable now s else t.ipStats }

def shouldBlock (autoBlock : Bool) (s : IpStats) : Bool :=
  s.isFlagged && !s.isBlocked && autoBlock

/-- One turn of the blocking loop. -/
def startBlock (autoBlock : Bool) (now : UInt64) (s : IpStats) : IpStats :=
  if shouldBlock autoBlock s then { s with isBlocked := true, blockStartNs := now } else s

def tickAndGetBlocks (now : UInt64) (t : FlowTracker) : FlowTracker × List UInt32 :=
  (evictIdle now { t with ipStats := t.ipStats.mapVals fun _ => startBlock t.autoBlockEnabled now },
    (t.ipStats.entries.filter fun e => shouldBlock t.autoBlockEnabled e.2).map Prod.fst)

def isExpired (ttl now : UInt64) (s : IpStats) : Bool :=
  s.isBlocked && s.blockStartNs + ttl ≤ now

/-- One turn of the release loop. -/
def releaseBlock (ttl now : UInt64) (s : IpStats) : IpStats :=
  if isExpired ttl now s then
    { s with isBlocked := false, isFlagged := false, synCount := 0, ackCount := 0 }
  else s

def getExpiredBlocks (now : UInt64) (t : FlowTracker) : FlowTracker × List UInt32 :=
  ({ t with ipStats := t.ipStats.mapVals fun _ => releaseBlock t.autoBlockTtlNs now },
    (t.ipStats.entries.filter fun e => isExpired t.autoBlockTtlNs now e.2).map Prod.fst)

end FlowTracker

end KWatch
