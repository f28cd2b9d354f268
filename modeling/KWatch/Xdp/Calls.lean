import KWatch.Library.Prog
import KWatch.Xdp.Effects

/-! # The program call by call

The packet program as the accesses it makes to maps and helpers, one after another. A run from
the first to the last access does what the program does at once; between the accesses of one
packet other processors may access the maps.
-/

namespace KWatch

/-- The accesses of the program. A store through a pointer to a map value is an access of its
own, and the two readings of the clock are told apart. -/
inductive XdpCall
  | lookupBlacklist (src : UInt32)
  | lookupCount (proto : UInt32)
  | addCount (proto : UInt32)
  | insertCount (proto : UInt32)
  | lookupFlow (key : KwatchFlowKey)
  | flowTime
  | insertFlow (key : KwatchFlowKey) (stats : KwatchFlowStats)
  | restartFlow (key : KwatchFlowKey) (now : UInt64)
  | touchFlow (key : KwatchFlowKey) (now : UInt64)
  | addSyn (key : KwatchFlowKey)
  | addAck (key : KwatchFlowKey)
  | prandom
  | reserve
  | eventTime
  | submit (e : KwatchEvent)
  | addDrop
  deriving DecidableEq, Repr

/-- What an access returns. -/
abbrev XdpCall.Result : XdpCall → Type
  | lookupBlacklist _ | lookupCount _ | insertCount _ | reserve => Bool
  | lookupFlow _ => Option KwatchFlowStats
  | flowTime | eventTime => UInt64
  | prandom => UInt32
  | _ => Unit

abbrev XdpProg := Prog XdpCall XdpCall.Result

def access (c : XdpCall) : XdpProg c.Result := .step c

namespace Maps

/-- A store through the pointer to a flow's value. -/
def storeFlow (key : KwatchFlowKey) (g : KwatchFlowStats → KwatchFlowStats) (m : Maps) : Maps :=
  match m.flowState.get? key with
  | some s => { m with flowState := m.flowState.set key (g s) }
  | none => m

end Maps

/-- The accesses on the maps. -/
def xdpSys (h : Helpers) : Handler XdpCall XdpCall.Result Maps
  | .lookupBlacklist src, m => ((m.blacklist.lookup (hostKey src)).isSome, m)
  | .lookupCount proto, m => ((m.pktCounts.get? proto).isSome, m)
  | .addCount proto, m =>
    ((), match m.pktCounts.get? proto with
      | some cnt => { m with pktCounts := m.pktCounts.set proto (cnt + 1) }
      | none => m)
  | .insertCount proto, m =>
    match m.pktCounts.putNew pktCountsMaxEntries proto 1 with
    | some t => (true, { m with pktCounts := t })
    | none => (false, m)
  | .lookupFlow key, m => (m.flowState.get? key, m)
  | .flowTime, m => (h.nowNs, m)
  | .insertFlow key stats, m =>
    ((), if key ∈ m.flowState.keys then m
      else { m with flowState := (h.lruVictims.foldl Table.erase m.flowState).set key stats })
  | .restartFlow key now, m =>
    ((), m.storeFlow key fun s => { s with firstSeenNs := now, synCount := 0, ackCount := 0 })
  | .touchFlow key now, m => ((), m.storeFlow key fun s => { s with lastSeenNs := now })
  | .addSyn key, m => ((), m.storeFlow key fun s => { s with synCount := s.synCount + 1 })
  | .addAck key, m => ((), m.storeFlow key fun s => { s with ackCount := s.ackCount + 1 })
  | .prandom, m => (h.prandom, m)
  | .reserve, m => (!h.ringFull, m)
  | .eventTime, m => (h.eventTsNs, m)
  | .submit e, m => ((), { m with events := m.events ++ [e] })
  | .addDrop, m => ((), incRingbufDrop m)

namespace Calls

def incCount (proto : UInt32) : XdpProg Unit := do
  if ← access (.lookupCount proto) then access (.addCount proto)
  else
    let _ ← access (.insertCount proto)

/-- No value means that a load has left the frame. -/
def emitEvent (cfg : KwatchRuntimeConfig) (f : Frame) (ip : Ipv4View) (action : UInt8)
    (isNew : Bool) : XdpProg (Option Unit) := do
  let randomValue ← access .prandom
  if !kwatchShouldEmitEvent cfg.sampleN randomValue isNew then pure (some ())
  else if ← access .reserve then
    let ts ← access .eventTime
    match eventRecord f ip ts action with
    | none => pure none
    | some e =>
      access (.submit e)
      pure (some ())
  else
    access .addDrop
    pure (some ())

/-- The accounting of an accepted packet; the result says that the flow was new. -/
def accountFlow (cfg : KwatchRuntimeConfig) (key : KwatchFlowKey) (tcpFlags : UInt8) :
    XdpProg Bool := do
  let stats ← access (.lookupFlow key)
  let now ← access .flowTime
  match stats with
  | none =>
    access (.insertFlow key (newFlowStats now tcpFlags))
    pure true
  | some stats =>
    if 0 < cfg.synWindowNs ∧ stats.firstSeenNs < now ∧ cfg.synWindowNs < now - stats.firstSeenNs then
      access (.restartFlow key now)
    access (.touchFlow key now)
    if tcpFlags &&& 0x02 ≠ 0 then access (.addSyn key)
    if tcpFlags &&& 0x10 ≠ 0 then access (.addAck key)
    pure false

/-- The program on an IPv4 packet. -/
def ipv4Packet (cfg : KwatchRuntimeConfig) (f : Frame) (ip : Ipv4View) :
    XdpProg (Option XdpAction) := do
  if ← access (.lookupBlacklist ip.src) then
    incCount 0xFFFF
    let done ← emitEvent cfg f ip 1 true
    pure (done.map fun _ => .XDP_DROP)
  else
    incCount ip.proto.toUInt32
    match flowFields f ip with
    | none => pure none
    | some t =>
      let isNew ← accountFlow cfg (flowKey ip t) t.tcpFlags
      let done ← emitEvent cfg f ip 0 isNew
      pure (done.map fun _ => .XDP_PASS)

def xdpKwatchProg (cfg : KwatchRuntimeConfig) (f : Frame) : XdpProg (Option XdpAction) :=
  match ethPayload f with
  | none => pure none
  | some none => pure (some .XDP_PASS)
  | some (some (ethType, l3)) =>
    if ethType ≠ ETH_P_IP then do
      if ethType = ETH_P_IPV6 then incCount 0x86DD
      else if ethType = ETH_P_ARP then incCount 0x0806
      pure (some .XDP_PASS)
    else
      match ipHeader f l3 with
      | none => pure none
      | some none => pure (some .XDP_PASS)
      | some (some ip) => ipv4Packet cfg f ip

end Calls

/-! ### A whole run is the program at once -/

variable (h : Helpers) (m : Maps)

namespace Calls

@[simp] theorem run_incCount (proto : UInt32) : (incCount proto).run (xdpSys h) m =
    ((), { m with pktCounts := KWatch.incCount proto m.pktCounts }) := by
  unfold incCount KWatch.incCount
  cases hk : m.pktCounts.get? proto with
  | some cnt => simp [access, xdpSys, hk]
  | none =>
    cases hp : m.pktCounts.putNew pktCountsMaxEntries proto 1 <;> simp [access, xdpSys, hk, hp]

theorem run_emitEvent (cfg : KwatchRuntimeConfig) (f : Frame) (ip : Ipv4View) (action : UInt8)
    (isNew : Bool) : (emitEvent cfg f ip action isNew).run (xdpSys h) m =
      (some (), emitRecord cfg h (eventOf f ip h.eventTsNs action) isNew m) := by
  unfold emitEvent emitRecord
  by_cases he : kwatchShouldEmitEvent cfg.sampleN h.prandom isNew
  · cases hr : h.ringFull <;> simp [access, xdpSys, he, hr, eventRecord_eq]
  · simp [access, xdpSys, he]

theorem storeFlow_set (key : KwatchFlowKey) (s : KwatchFlowStats)
    (g : KwatchFlowStats → KwatchFlowStats) :
    ({ m with flowState := m.flowState.set key s } : Maps).storeFlow key g =
      { m with flowState := m.flowState.set key (g s) } := by
  simp [Maps.storeFlow, Table.set_set]

theorem storeFlow_eq {key : KwatchFlowKey} {s : KwatchFlowStats} (hs : m.flowState.get? key = some s)
    (g : KwatchFlowStats → KwatchFlowStats) :
    m.storeFlow key g = { m with flowState := m.flowState.set key (g s) } := by
  simp [Maps.storeFlow, hs]

theorem run_accountFlow (cfg : KwatchRuntimeConfig) (key : KwatchFlowKey) (tcpFlags : UInt8) :
    (accountFlow cfg key tcpFlags).run (xdpSys h) m =
      let r := KWatch.accountFlow cfg h key tcpFlags m.flowState
      (r.2, { m with flowState := r.1 }) := by
  unfold accountFlow KWatch.accountFlow
  cases hs : m.flowState.get? key with
  | none =>
    have hk : key ∉ m.flowState.keys := Table.get?_eq_none_iff.mp hs
    simp [access, xdpSys, hs, hk]
  | some s =>
    by_cases hw : 0 < cfg.synWindowNs ∧ s.firstSeenNs < h.nowNs ∧
        cfg.synWindowNs < h.nowNs - s.firstSeenNs
    all_goals
      by_cases hsyn : tcpFlags &&& 0x02 = 0 <;> by_cases hack : tcpFlags &&& 0x10 = 0 <;>
        simp [access, xdpSys, updateFlowStats, restartWindow, hs, hw, hsyn, hack,
          storeFlow_eq m hs, storeFlow_set]

theorem run_ipv4Packet (cfg : KwatchRuntimeConfig) (f : Frame) (ip : Ipv4View) :
    (ipv4Packet cfg f ip).run (xdpSys h) m =
      (some (runView cfg h f m (.ipv4 ip)).1, (runView cfg h f m (.ipv4 ip)).2) := by
  by_cases hb : (m.blacklist.lookup (hostKey ip.src)).isSome = true
  · simp [ipv4Packet, access, xdpSys, runView, isBlacklisted, hb, run_emitEvent]
  · simp [ipv4Packet, access, xdpSys, runView, isBlacklisted, hb, flowFields_eq, run_accountFlow,
      run_emitEvent, keyOf]

/-- The program by the view of the frame. -/
theorem xdpKwatchProg_eq (cfg : KwatchRuntimeConfig) (f : Frame) : xdpKwatchProg cfg f =
    match frameView f with
    | .ignored => pure (some .XDP_PASS)
    | .sentinel k => do incCount k; pure (some .XDP_PASS)
    | .ipv4 ip => ipv4Packet cfg f ip := by
  obtain ⟨r, hr⟩ := ethPayload_total f
  unfold xdpKwatchProg frameView
  rw [hr]
  rcases r with _ | ⟨ethType, l3⟩
  · rfl
  · obtain ⟨v, hv⟩ := ipHeader_total f l3
    by_cases hip : ethType = ETH_P_IP
    · rcases v with _ | ip <;> simp [hip, hv]
    · simp only [hip, ne_eq, not_false_eq_true, if_true, if_false]
      split_ifs <;> rfl

/-- Between its first and its last access the program does what it does at once. -/
theorem run_xdpKwatchProg (cfg : KwatchRuntimeConfig) (f : Frame) :
    (xdpKwatchProg cfg f).run (xdpSys h) m =
      (some (runView cfg h f m (frameView f)).1, (runView cfg h f m (frameView f)).2) := by
  rw [xdpKwatchProg_eq]
  cases hv : frameView f with
  | ignored => rfl
  | sentinel k => simp [runView]
  | ipv4 ip => exact run_ipv4Packet h m cfg f ip

end Calls

end KWatch
