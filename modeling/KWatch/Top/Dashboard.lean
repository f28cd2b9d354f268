import KWatch.Cli.Stats
import KWatch.Core.PpsWindow
import KWatch.Ring.Delivery
import KWatch.Top.Tick

/-! # What the dashboard shows

`kwatch top` drains the ring buffer into the tracker and a list of recent events, and at every tick
it reads the loss counters, walks the packet counters one by one, updates the tracker and builds the
rows of its tables. Packets arrive between any two of these steps.
-/

namespace KWatch

structure ThreatRow where
  ip : UInt32
  synCount : UInt32
  ackCount : UInt32
  ttl : UInt8
  flagged : Bool
  deriving DecidableEq, Repr

namespace ThreatRow

def ofStats (e : UInt32 × IpStats) : ThreatRow :=
  ⟨e.1, e.2.synCount, e.2.ackCount, e.2.lastTtl, e.2.isFlagged⟩

/-- The order of the table: more SYNs first, and then the smaller address. -/
def outranks (lhs rhs : ThreatRow) : Bool :=
  if lhs.synCount ≠ rhs.synCount then rhs.synCount < lhs.synCount else lhs.ip < rhs.ip

end ThreatRow

def refreshThreatSnapshot (tracker : FlowTracker) : List ThreatRow :=
  (tracker.ipStats.entries.map ThreatRow.ofStats).mergeSort fun lhs rhs => !rhs.outranks lhs

def kRecentEventCap : ℕ := 50

/-- The oldest event makes room for a new one. -/
def pushRecent (recentEvents : List KwatchEvent) (e : KwatchEvent) : List KwatchEvent :=
  (if recentEvents.length = kRecentEventCap then recentEvents.tail else recentEvents) ++ [e]

/-- The packets of all classes but the dropped ones. -/
def protocolTotal (b : ProtocolBreakdown) : UInt64 := b.tcp + b.udp + b.icmp + b.other

/-- The walk over the packet counters: the keys that were there when it began, those that have been
read, and the totals so far. -/
structure Walk where
  present : List UInt32
  visited : List UInt32
  breakdown : ProtocolBreakdown

/-- The kernel side with the reader of the ring buffer, and what the loop of `cmd_top` keeps. -/
structure Dashboard where
  pipeline : Pipeline
  tracker : FlowTracker
  recentEvents : List KwatchEvent
  eventDropCount : UInt64
  protocolBreakdown : ProtocolBreakdown
  lastPktTotal : UInt64
  currentPps : UInt64
  ppsWin : PpsWindow
  ppsSnapshot : List UInt64
  threatRows : List ThreatRow
  walk : Option Walk

/-- Packets arrive at any time. A tick reads the loss counters, then one packet counter after
another, and ends with the flows of a snapshot, or none if the refresh has failed. -/
inductive DashboardStep
  | packet (a : Arrival)
  | consume
  | beginTick (dropsRead : Bool)
  | readCounter (key : UInt32)
  | endTick (snapshot : Option (List FlowMapEntry)) (now : UInt64)

namespace Dashboard

def start (tracker : FlowTracker) : Dashboard where
  pipeline := .start
  tracker := tracker
  recentEvents := []
  eventDropCount := 0
  protocolBreakdown := {}
  lastPktTotal := 0
  currentPps := 0
  ppsWin := .ofSize 60
  ppsSnapshot := []
  threatRows := refreshThreatSnapshot tracker
  walk := none

/-- The callback of the ring buffer. -/
def rbCb (d : Dashboard) (e : KwatchEvent) : Dashboard :=
  { d with
    tracker := d.tracker.processEvent e
    recentEvents := pushRecent d.recentEvents e }

/-- The reader, and the callback for every event that it has delivered. -/
def drained (d : Dashboard) (p : Pipeline) : Dashboard :=
  (p.ring.delivered.drop d.pipeline.ring.delivered.length).foldl rbCb { d with pipeline := p }

/-- The next counter of the walk. -/
def readCounter (d : Dashboard) (key : UInt32) (w : Walk) : Option Dashboard :=
  if key ∈ w.visited then none
  else (d.pipeline.maps.pktCounts.get? key).map fun value =>
    { d with walk := some { w with
        visited := w.visited ++ [key]
        breakdown := w.breakdown.count (key, value) } }

/-- The packet rate of a tick. Two ticks make a second. -/
def notePps (d : Dashboard) (currentTotal : UInt64) : Option Dashboard :=
  if 0 < d.lastPktTotal then
    let currentPps := (currentTotal - d.lastPktTotal) * 2
    (d.ppsWin.push currentPps).map fun ppsWin =>
      { d with currentPps := currentPps, ppsWin := ppsWin, lastPktTotal := currentTotal }
  else some { d with currentPps := 0, lastPktTotal := currentTotal }

def noteSnapshot (snapshot : Option (List FlowMapEntry)) (now : UInt64) (t : FlowTracker) :
    FlowTracker :=
  match snapshot with
  | some entries => t.processFlowSnapshot entries now
  | none => t

/-- A tick from the end of the walk on. -/
def endTick (d : Dashboard) (b : ProtocolBreakdown) (snapshot : Option (List FlowMapEntry))
    (now : UInt64) : Option Dashboard := do
  let d ← d.notePps (protocolTotal b)
  let tracker := Top.afterTick now (noteSnapshot snapshot now d.tracker)
  let ppsSnapshot ← d.ppsWin.copySnapshot d.ppsSnapshot
  return { d with
    protocolBreakdown := b
    tracker := tracker
    ppsSnapshot := ppsSnapshot
    threatRows := refreshThreatSnapshot tracker
    walk := none }

/-- One thread: it drains the ring between its ticks. A walk reads no counter twice, and it does not
end before it has read every counter that was there when it began. -/
def step (cfg : KwatchRuntimeConfig) (consumer : RingBuf.Consumer) (d : Dashboard) :
    DashboardStep → Option Dashboard
  | .packet a => (d.pipeline.step cfg consumer (.packet a)).map fun p => { d with pipeline := p }
  | .consume =>
    match d.walk with
    | some _ => none
    | none => (d.pipeline.step cfg consumer (.consume 256 (by decide))).map d.drained
  | .beginTick dropsRead =>
    match d.walk with
    | some _ => none
    | none => some { d with
        eventDropCount := d.pipeline.ring.droppedCount +
          if dropsRead then d.pipeline.maps.ringbufDrops else 0
        walk := some ⟨d.pipeline.maps.pktCounts.keys, [], {}⟩ }
  | .readCounter key => d.walk.bind (d.readCounter key)
  | .endTick snapshot now =>
    match d.walk with
    | none => none
    | some w => if w.present ⊆ w.visited then d.endTick w.breakdown snapshot now else none

/-! ### What the steps do -/

variable {cfg : KwatchRuntimeConfig} {consumer : RingBuf.Consumer} {d d' : Dashboard}

theorem foldl_rbCb (es : List KwatchEvent) (d : Dashboard) :
    es.foldl rbCb d = { d with
      tracker := es.foldl (fun t e => t.processEvent e) d.tracker
      recentEvents := es.foldl pushRecent d.recentEvents } := by
  induction es generalizing d with
  | nil => rfl
  | cons e es ih => rw [List.foldl_cons, ih]; rfl

/-- All that a step can do, with the walk that it needs. -/
inductive Steps (cfg : KwatchRuntimeConfig) (consumer : RingBuf.Consumer) (d : Dashboard) :
    DashboardStep → Dashboard → Prop
  | packet {a : Arrival} {p : Pipeline} : d.pipeline.step cfg consumer (.packet a) = some p →
      Steps cfg consumer d (.packet a) { d with pipeline := p }
  | consume {p : Pipeline} : d.walk = none →
      d.pipeline.step cfg consumer (.consume 256 (by decide)) = some p →
      Steps cfg consumer d .consume (d.drained p)
  | beginTick {dropsRead : Bool} : d.walk = none →
      Steps cfg consumer d (.beginTick dropsRead) { d with
        eventDropCount := d.pipeline.ring.droppedCount +
          if dropsRead then d.pipeline.maps.ringbufDrops else 0
        walk := some ⟨d.pipeline.maps.pktCounts.keys, [], {}⟩ }
  | readCounter {key : UInt32} {w : Walk} {value : UInt64} : d.walk = some w →
      key ∉ w.visited → d.pipeline.maps.pktCounts.get? key = some value →
      Steps cfg consumer d (.readCounter key) { d with walk := some { w with
        visited := w.visited ++ [key]
        breakdown := w.breakdown.count (key, value) } }
  | endTick {snapshot : Option (List FlowMapEntry)} {now : UInt64} {w : Walk} {d' : Dashboard} :
      d.walk = some w → w.present ⊆ w.visited → d.endTick w.breakdown snapshot now = some d' →
      Steps cfg consumer d (.endTick snapshot now) d'

theorem steps_of_step {st : DashboardStep} (h : d.step cfg consumer st = some d') :
    Steps cfg consumer d st d' := by
  cases st with
  | packet a =>
    obtain ⟨p, hp, rfl⟩ := Option.map_eq_some_iff.mp h
    exact .packet hp
  | consume =>
    simp only [step] at h
    split at h
    · cases h
    · next hw =>
      obtain ⟨p, hp, rfl⟩ := Option.map_eq_some_iff.mp h
      exact .consume hw hp
  | beginTick dropsRead =>
    simp only [step] at h
    split at h
    · cases h
    · next hw =>
      cases h
      exact .beginTick hw
  | readCounter key =>
    obtain ⟨w, hw, h⟩ := Option.bind_eq_some_iff.mp h
    rw [readCounter, Option.ite_none_left_eq_some] at h
    obtain ⟨hkey, h⟩ := h
    obtain ⟨value, hv, rfl⟩ := Option.map_eq_some_iff.mp h
    exact .readCounter hw hkey hv
  | endTick snapshot now =>
    simp only [step] at h
    split at h
    · cases h
    · next w hw =>
      obtain ⟨hsub, h⟩ := Option.ite_none_right_eq_some.mp h
      exact .endTick hw hsub h

/-- The end of a tick touches neither the pipeline nor the recent events nor the footer. -/
theorem endTick_eq {b : ProtocolBreakdown} {snapshot : Option (List FlowMapEntry)} {now : UInt64}
    (h : d.endTick b snapshot now = some d') :
    ∃ d₁ ppsSnapshot, d.notePps (protocolTotal b) = some d₁ ∧
      d₁.ppsWin.copySnapshot d₁.ppsSnapshot = some ppsSnapshot ∧
      d' = { d₁ with
        protocolBreakdown := b
        tracker := Top.afterTick now (noteSnapshot snapshot now d₁.tracker)
        ppsSnapshot := ppsSnapshot
        threatRows :=
          refreshThreatSnapshot (Top.afterTick now (noteSnapshot snapshot now d₁.tracker))
        walk := none } := by
  obtain ⟨d₁, h₁, h⟩ := Option.bind_eq_some_iff.mp h
  obtain ⟨snap, hsnap, h⟩ := Option.bind_eq_some_iff.mp h
  cases h
  exact ⟨d₁, snap, h₁, hsnap, rfl⟩

/-- A tick that has read a total before records a sample. -/
theorem notePps_eq {total : UInt64} (h : d.notePps total = some d') :
    (d.lastPktTotal = 0 ∧ d' = { d with currentPps := 0, lastPktTotal := total }) ∨
    (d.lastPktTotal ≠ 0 ∧ ∃ ppsWin,
      d.ppsWin.push ((total - d.lastPktTotal) * 2) = some ppsWin ∧
      d' = { d with
        currentPps := (total - d.lastPktTotal) * 2
        ppsWin := ppsWin
        lastPktTotal := total }) := by
  unfold notePps at h
  split_ifs at h with hlast
  · obtain ⟨win, hwin, rfl⟩ := Option.map_eq_some_iff.mp h
    refine .inr ⟨?_, win, hwin, rfl⟩
    rintro hzero
    rw [hzero] at hlast
    exact absurd hlast (by decide)
  · cases h
    refine .inl ⟨?_, rfl⟩
    rw [UInt64.lt_iff_toNat_lt] at hlast
    exact UInt64.toNat_inj.mp (by simpa using hlast)

end Dashboard

end KWatch
