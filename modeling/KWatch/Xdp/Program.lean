import KWatch.Maps.Blacklist
import KWatch.Wire.Frame

/-! # The XDP program

The packet program over its maps, following `bpf/kwatch.bpf.c` and `bpf/kwatch_shared.h`. A run
has no value when it loads a byte outside the frame. What the kernel decides during one run
(clock readings, the random draw, room in the ring, victims of the LRU map) is an argument.
-/

namespace KWatch

def IPPROTO_ICMP : UInt8 := 1
def IPPROTO_TCP : UInt8 := 6
def IPPROTO_UDP : UInt8 := 17

/-- The verdicts of the program. `XDP_ABORTED` is for a context type without packet pointers. -/
inductive XdpAction | XDP_DROP | XDP_PASS
  deriving DecidableEq, Repr

/-- An event as written to the ring buffer. -/
structure KwatchEvent where
  tsNs : UInt64
  srcIp : UInt32
  dstIp : UInt32
  sport : UInt16
  dport : UInt16
  protocol : UInt8
  tcpFlags : UInt8
  ttl : UInt8
  action : UInt8
  icmpType : UInt8
  icmpCode : UInt8
  deriving DecidableEq, Repr

structure KwatchFlowKey where
  srcIp : UInt32
  dstIp : UInt32
  sport : UInt16
  dport : UInt16
  protocol : UInt8
  deriving DecidableEq, Repr

structure KwatchFlowStats where
  synCount : UInt32
  ackCount : UInt32
  firstSeenNs : UInt64
  lastSeenNs : UInt64
  deriving DecidableEq, Repr

structure KwatchRuntimeConfig where
  sampleN : UInt32
  synWindowNs : UInt64
  deriving DecidableEq, Repr

def kwatchMakeRuntimeConfig (sampleN synWindowS : UInt32) : KwatchRuntimeConfig :=
  ⟨sampleN, synWindowS.toUInt64 * 1000000000⟩

def kwatchShouldEmitEvent (sampleN randomValue : UInt32) (isNew : Bool) : Bool :=
  if isNew || sampleN ≤ 1 then true else randomValue % sampleN == 0

def pktCountsMaxEntries : ℕ := 256

/-- The maps the program uses. Pending ring records are listed oldest first. -/
structure Maps where
  blacklist : LpmTrie
  flowState : Table KwatchFlowKey KwatchFlowStats
  events : List KwatchEvent
  ringbufDrops : UInt64
  pktCounts : Table UInt32 UInt64

/-- What the kernel helpers answer during one run of the program. -/
structure Helpers where
  nowNs : UInt64
  eventTsNs : UInt64
  prandom : UInt32
  ringFull : Bool
  lruVictims : List KwatchFlowKey

def incCount (proto : UInt32) (pktCounts : Table UInt32 UInt64) : Table UInt32 UInt64 :=
  match pktCounts.get? proto with
  | some cnt => pktCounts.set proto (cnt + 1)
  -- the result of the insertion is ignored
  | none => (pktCounts.putNew pktCountsMaxEntries proto 1).getD pktCounts

def incRingbufDrop (m : Maps) : Maps := { m with ringbufDrops := m.ringbufDrops + 1 }

/-- The bytes of an IPv4 header that the program uses, and the offset of what follows it. -/
structure Ipv4View where
  l4 : ℕ
  proto : UInt8
  ttl : UInt8
  src : UInt32
  dst : UInt32
  deriving DecidableEq, Repr

/-- The EtherType behind at most one tag and the offset of the payload; `some none` passes. -/
def ethPayload (f : Frame) : Option (Option (UInt16 × ℕ)) :=
  if f.length < 14 then some none
  else do
    let ethType := bpfNtohs (← load16 f 12)
    if ethType = ETH_P_8021Q ∨ ethType = ETH_P_8021AD then
      if f.length < 18 then some none
      else do
        let inner ← load16 f 16
        some (some (bpfNtohs inner, 18))
    else some (some (ethType, 14))

/-- The checks on the IPv4 header at offset `l3`; `some none` passes the frame. -/
def ipHeader (f : Frame) (l3 : ℕ) : Option (Option Ipv4View) :=
  if f.length < l3 + 20 then some none
  else do
    let b ← load8 f l3
    if b.toNat / 16 ≠ 4 then some none
    else
      let ihl := b.toNat % 16
      if ihl < 5 then some none
      else
        let l4 := l3 + ihl * 4
        if f.length < l4 then some none
        else do
          let proto ← load8 f (l3 + 9)
          let src ← load32 f (l3 + 12)
          let dst ← load32 f (l3 + 16)
          let ttl ← load8 f (l3 + 8)
          some (some ⟨l4, proto, ttl, src, dst⟩)

/-- Ports and TCP flags as the flow accounting reads them. -/
structure FlowFields where
  sport : UInt16
  dport : UInt16
  tcpFlags : UInt8
  deriving DecidableEq, Repr

def flowFields (f : Frame) (ip : Ipv4View) : Option FlowFields :=
  if ip.proto = IPPROTO_TCP then
    if ip.l4 + 20 ≤ f.length then do
      let sport ← load16 f ip.l4
      let dport ← load16 f (ip.l4 + 2)
      let flags ← load8 f (ip.l4 + 13)
      some ⟨bpfNtohs sport, bpfNtohs dport, flags⟩
    else some ⟨0, 0, 0⟩
  else if ip.proto = IPPROTO_UDP then
    if ip.l4 + 8 ≤ f.length then do
      let sport ← load16 f ip.l4
      let dport ← load16 f (ip.l4 + 2)
      some ⟨bpfNtohs sport, bpfNtohs dport, 0⟩
    else some ⟨0, 0, 0⟩
  else some ⟨0, 0, 0⟩

/-- The event written for a packet, with its transport header parsed a second time. -/
def eventRecord (f : Frame) (ip : Ipv4View) (ts : UInt64) (action : UInt8) : Option KwatchEvent :=
  let e : KwatchEvent := ⟨ts, ip.src, ip.dst, 0, 0, ip.proto, 0, ip.ttl, action, 0, 0⟩
  if ip.proto = IPPROTO_TCP then
    if ip.l4 + 20 ≤ f.length then do
      let sport ← load16 f ip.l4
      let dport ← load16 f (ip.l4 + 2)
      let flags ← load8 f (ip.l4 + 13)
      some { e with sport := bpfNtohs sport, dport := bpfNtohs dport, tcpFlags := flags }
    else some e
  else if ip.proto = IPPROTO_UDP then
    if ip.l4 + 8 ≤ f.length then do
      let sport ← load16 f ip.l4
      let dport ← load16 f (ip.l4 + 2)
      some { e with sport := bpfNtohs sport, dport := bpfNtohs dport }
    else some e
  else if ip.proto = IPPROTO_ICMP then
    if ip.l4 + 8 ≤ f.length then do
      let type ← load8 f ip.l4
      let code ← load8 f (ip.l4 + 1)
      some { e with icmpType := type, icmpCode := code }
    else some e
  else some e

def emitEvent (cfg : KwatchRuntimeConfig) (h : Helpers) (f : Frame) (ip : Ipv4View)
    (action : UInt8) (isNew : Bool) (m : Maps) : Option Maps :=
  if !kwatchShouldEmitEvent cfg.sampleN h.prandom isNew then some m
  else if h.ringFull then some (incRingbufDrop m)
  else do
    let e ← eventRecord f ip h.eventTsNs action
    some { m with events := m.events ++ [e] }

def flowKey (ip : Ipv4View) (t : FlowFields) : KwatchFlowKey :=
  ⟨ip.src, ip.dst, t.sport, t.dport, ip.proto⟩

def newFlowStats (now : UInt64) (tcpFlags : UInt8) : KwatchFlowStats where
  synCount := if tcpFlags &&& 0x02 ≠ 0 then 1 else 0
  ackCount := if tcpFlags &&& 0x10 ≠ 0 then 1 else 0
  firstSeenNs := now
  lastSeenNs := now

/-- The restart of a flow's counting window. -/
def restartWindow (cfg : KwatchRuntimeConfig) (now : UInt64) (s : KwatchFlowStats) :
    KwatchFlowStats :=
  if 0 < cfg.synWindowNs ∧ s.firstSeenNs < now ∧ cfg.synWindowNs < now - s.firstSeenNs then
    { s with firstSeenNs := now, synCount := 0, ackCount := 0 }
  else s

def updateFlowStats (cfg : KwatchRuntimeConfig) (now : UInt64) (tcpFlags : UInt8)
    (s : KwatchFlowStats) : KwatchFlowStats :=
  let r := restartWindow cfg now s
  { r with
    lastSeenNs := now
    synCount := if tcpFlags &&& 0x02 ≠ 0 then r.synCount + 1 else r.synCount
    ackCount := if tcpFlags &&& 0x10 ≠ 0 then r.ackCount + 1 else r.ackCount }

/-- The flow accounting of an accepted packet; the flag says that the flow was new. -/
def accountFlow (cfg : KwatchRuntimeConfig) (h : Helpers) (key : KwatchFlowKey) (tcpFlags : UInt8)
    (flows : Table KwatchFlowKey KwatchFlowStats) : Table KwatchFlowKey KwatchFlowStats × Bool :=
  match flows.get? key with
  | none => ((h.lruVictims.foldl Table.erase flows).set key (newFlowStats h.nowNs tcpFlags), true)
  | some stats => (flows.set key (updateFlowStats cfg h.nowNs tcpFlags stats), false)

def xdpKwatchProg (cfg : KwatchRuntimeConfig) (h : Helpers) (f : Frame) (m : Maps) :
    Option (XdpAction × Maps) := do
  match ← ethPayload f with
  | none => some (.XDP_PASS, m)
  | some (ethType, l3) =>
    if ethType ≠ ETH_P_IP then
      if ethType = ETH_P_IPV6 then
        some (.XDP_PASS, { m with pktCounts := incCount 0x86DD m.pktCounts })
      else if ethType = ETH_P_ARP then
        some (.XDP_PASS, { m with pktCounts := incCount 0x0806 m.pktCounts })
      else some (.XDP_PASS, m)
    else
      match ← ipHeader f l3 with
      | none => some (.XDP_PASS, m)
      | some ip =>
        if (m.blacklist.lookup (hostKey ip.src)).isSome then do
          let m := { m with pktCounts := incCount 0xFFFF m.pktCounts }
          let m ← emitEvent cfg h f ip 1 true m
          some (.XDP_DROP, m)
        else do
          let m := { m with pktCounts := incCount ip.proto.toUInt32 m.pktCounts }
          let t ← flowFields f ip
          let (flows, isNew) := accountFlow cfg h (flowKey ip t) t.tcpFlags m.flowState
          let m ← emitEvent cfg h f ip 0 isNew { m with flowState := flows }
          some (.XDP_PASS, m)

end KWatch
