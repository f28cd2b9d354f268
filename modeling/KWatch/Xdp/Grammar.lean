import KWatch.Xdp.Calls

/-! # The grammar of accepted packets

The accesses that need an IPv4 packet are made exactly for the frames of the IPv4 grammar, and
then with the fields that the frame encodes. Every other frame passes, and at most its sentinel
counter changes.
-/

namespace KWatch

namespace XdpCall

/-- The key of an access to the flow map. -/
def flowKey? : XdpCall → Option KwatchFlowKey
  | lookupFlow key | insertFlow key _ | restartFlow key _ | touchFlow key _ | addSyn key
  | addAck key => some key
  | _ => none

/-- The accesses for an IPv4 packet: to the blacklist, the flows and the ring, and to the
counters of the IPv4 protocols and of the dropped packets. -/
def ForIpv4 : XdpCall → Prop
  | lookupCount k | addCount k | insertCount k => k < 256 ∨ k = 0xFFFF
  | _ => True

/-- An access for a packet with the given header and action takes its data from the header. -/
def Carries (H : Ipv4Header) (action : UInt8) : XdpCall → Prop
  | lookupBlacklist src => src = H.saddr
  | lookupCount k | addCount k | insertCount k =>
    k = if action = 1 then 0xFFFF else H.protocol.toUInt32
  | lookupFlow key | insertFlow key _ | restartFlow key _ | touchFlow key _ | addSyn key
  | addAck key =>
    action = 0 ∧ key.srcIp = H.saddr ∧ key.dstIp = H.daddr ∧ key.protocol = H.protocol
  | submit e => e.srcIp = H.saddr ∧ e.dstIp = H.daddr ∧ e.protocol = H.protocol ∧
    e.ttl = H.ttl ∧ e.action = action
  | _ => True

end XdpCall

/-- A key's counter goes up by one if the key is stored or there is room for it, and no other
counter changes. -/
structure Bumped (k : UInt32) (t u : Table UInt32 UInt64) : Prop where
  self : u.get? k = match t.get? k with
    | some cnt => some (cnt + 1)
    | none => if t.size < pktCountsMaxEntries then some 1 else none
  others : ∀ k' ≠ k, u.get? k' = t.get? k'

theorem bumped_incCount (k : UInt32) (t : Table UInt32 UInt64) : Bumped k t (incCount k t) := by
  unfold incCount
  cases hk : t.get? k with
  | some cnt =>
    constructor
    · simp [hk]
    · intro k' hne
      exact t.get?_set_ne hne _
  | none =>
    have hm : k ∉ t.keys := Table.get?_eq_none_iff.mp hk
    by_cases hroom : t.size < pktCountsMaxEntries
    · have hput : t.putNew pktCountsMaxEntries k 1 = some (t.set k 1) :=
        Table.putNew_eq_some_iff.mpr ⟨hm, hroom, rfl⟩
      rw [hput, Option.getD_some]
      constructor
      · simp [hk, hroom]
      · intro k' hne
        exact t.get?_set_ne hne _
    · have hput : t.putNew pktCountsMaxEntries k 1 = none := by
        simp [Table.putNew, Table.put, hroom, hm]
      rw [hput, Option.getD_none]
      constructor
      · simp [hk, hroom]
      · intro k' hne
        rfl

/-! ### Which accesses are made -/

namespace Calls

variable (cfg : KwatchRuntimeConfig) (f : Frame) (ip : Ipv4View)

theorem uses_incCount {ok : XdpCall → Prop} {k : UInt32} (hl : ok (.lookupCount k))
    (ha : ok (.addCount k)) (hi : ok (.insertCount k)) : (incCount k).Uses ok := by
  unfold incCount
  apply Prog.Uses.bind
  · exact ⟨hl, fun _ => trivial⟩
  · intro found
    split
    · exact ⟨ha, fun _ => trivial⟩
    · exact ⟨hi, fun _ => trivial⟩

theorem uses_emitEvent {ok : XdpCall → Prop} (action : UInt8) (isNew : Bool) (hp : ok .prandom)
    (hr : ok .reserve) (ht : ok .eventTime) (hd : ok .addDrop)
    (hs : ∀ ts, ok (.submit (eventOf f ip ts action))) :
    (emitEvent cfg f ip action isNew).Uses ok := by
  simp only [emitEvent, access, Prog.step_bind, Prog.uses_call, eventRecord_eq, Prog.pure_eq]
  refine ⟨hp, fun randomValue => ?_⟩
  split
  · trivial
  · refine ⟨hr, fun reserved => ?_⟩
    dsimp only
    split
    · exact ⟨ht, fun ts => ⟨hs ts, fun _ => trivial⟩⟩
    · exact ⟨hd, fun _ => trivial⟩

theorem uses_accountFlow {ok : XdpCall → Prop} {key : KwatchFlowKey} (tcpFlags : UInt8)
    (hl : ok (.lookupFlow key)) (ht : ok .flowTime) (hi : ∀ s, ok (.insertFlow key s))
    (hr : ∀ now, ok (.restartFlow key now)) (hu : ∀ now, ok (.touchFlow key now))
    (hs : ok (.addSyn key)) (ha : ok (.addAck key)) :
    (accountFlow cfg key tcpFlags).Uses ok := by
  simp only [accountFlow, access, Prog.step_bind, Prog.uses_call]
  refine ⟨hl, fun stats => ⟨ht, fun now => ?_⟩⟩
  cases stats with
  | none => exact ⟨hi _, fun _ => trivial⟩
  | some s =>
    dsimp only
    split_ifs <;> simp [hr, hu, hs, ha]

/-- The accesses for a packet, after the blacklist has answered. -/
def packetAccesses (blacklisted : Bool) : XdpProg (Option XdpAction) :=
  if blacklisted then do
    incCount 0xFFFF
    let done ← emitEvent cfg f ip 1 true
    pure (done.map fun _ => .XDP_DROP)
  else do
    incCount ip.proto.toUInt32
    let isNew ← accountFlow cfg (keyOf f ip) (flowFieldsOf f ip).tcpFlags
    let done ← emitEvent cfg f ip 0 isNew
    pure (done.map fun _ => .XDP_PASS)

theorem ipv4Packet_eq : ipv4Packet cfg f ip =
    .call (.lookupBlacklist ip.src) fun blacklisted => packetAccesses cfg f ip blacklisted := by
  simp only [ipv4Packet, access, Prog.step_bind, packetAccesses, flowFields_eq]
  congr 1

/-- The accesses that a packet may make after the blacklist has answered. -/
def MayAccess (blacklisted : Bool) : XdpCall → Prop
  | .lookupCount k | .addCount k | .insertCount k =>
    k = if blacklisted then 0xFFFF else ip.proto.toUInt32
  | .lookupFlow key | .insertFlow key _ | .restartFlow key _ | .touchFlow key _ | .addSyn key
  | .addAck key => blacklisted = false ∧ key = keyOf f ip
  | .submit e => ∃ ts, e = eventOf f ip ts (if blacklisted then 1 else 0)
  | .lookupBlacklist _ => False
  | _ => True

theorem uses_packetAccesses (blacklisted : Bool) :
    (packetAccesses cfg f ip blacklisted).Uses (MayAccess f ip blacklisted) := by
  cases blacklisted with
  | true =>
    apply Prog.Uses.bind
    · exact uses_incCount rfl rfl rfl
    · intro _
      apply Prog.Uses.bind
      · exact uses_emitEvent cfg f ip 1 true trivial trivial trivial trivial fun ts => ⟨ts, rfl⟩
      · intro _
        trivial
  | false =>
    have hkey : MayAccess f ip false (.lookupFlow (keyOf f ip)) := ⟨rfl, rfl⟩
    apply Prog.Uses.bind
    · exact uses_incCount rfl rfl rfl
    · intro _
      apply Prog.Uses.bind
      · exact uses_accountFlow cfg _ hkey trivial (fun _ => hkey) (fun _ => hkey) (fun _ => hkey)
          hkey hkey
      · intro isNew
        apply Prog.Uses.bind
        · exact uses_emitEvent cfg f ip 0 isNew trivial trivial trivial trivial fun ts => ⟨ts, rfl⟩
        · intro _
          trivial

theorem MayAccess.carries {f : Frame} {H : Ipv4Header} {l3 : ℕ} {blacklisted : Bool} {c : XdpCall}
    (hc : MayAccess f (H.view l3) blacklisted c) : c.Carries H (if blacklisted then 1 else 0) := by
  cases c with
  | lookupCount k => cases blacklisted <;> exact hc
  | addCount k => cases blacklisted <;> exact hc
  | insertCount k => cases blacklisted <;> exact hc
  | submit e =>
    obtain ⟨ts, rfl⟩ := hc
    rw [eventOf_eq]
    exact ⟨rfl, rfl, rfl, rfl, rfl⟩
  | lookupBlacklist src => exact hc.elim
  | flowTime | eventTime | prandom | reserve | addDrop => trivial
  | lookupFlow | insertFlow | restartFlow | touchFlow | addSyn | addAck =>
    obtain ⟨rfl, rfl⟩ := hc
    exact ⟨rfl, rfl, rfl, rfl⟩

/-- Every packet is counted and reaches the emit decision, and an accepted one looks up its flow. -/
theorem calls_packetAccesses (h : Helpers) (m : Maps) (blacklisted : Bool) :
    XdpCall.prandom ∈ (packetAccesses cfg f ip blacklisted).calls (xdpSys h) m ∧
      (blacklisted = false →
        .lookupFlow (keyOf f ip) ∈ (packetAccesses cfg f ip blacklisted).calls (xdpSys h) m) := by
  cases blacklisted <;> simp [packetAccesses, emitEvent, accountFlow, access]

end Calls

/-! ### The program accepts its grammar -/

/-- A run takes a frame as the packet with the given header. -/
structure TakenAs (H : Ipv4Header) (m : Maps) (calls : List XdpCall) (a : XdpAction) (m' : Maps) :
    Prop where
  verdict : a = if ∃ n ∈ m.blacklist.networks, InNetwork H.saddr n then .XDP_DROP else .XDP_PASS
  looked : .lookupBlacklist H.saddr ∈ calls
  carries : ∀ c ∈ calls, c.Carries H (if a = .XDP_DROP then 1 else 0)
  counted : Bumped (if a = .XDP_DROP then 0xFFFF else H.protocol.toUInt32) m.pktCounts m'.pktCounts
  accounted : a = .XDP_PASS → ∃ key, .lookupFlow key ∈ calls ∧ (m'.flowState.get? key).isSome
  emitted : .prandom ∈ calls

/-- A run passes a frame without a change, except that a frame with the EtherType of IPv6 or ARP,
behind at most one tag, adds to the counter of that type. -/
def PassesBy (f : Frame) (m : Maps) (a : XdpAction) (m' : Maps) : Prop :=
  a = .XDP_PASS ∧ ∃ t, m' = { m with pktCounts := t } ∧
    ((∃ E : EthFrame, E.encode = f ∧ E.ethType = ETH_P_IPV6 ∧ Bumped 0x86DD m.pktCounts t) ∨
      (∃ E : EthFrame, E.encode = f ∧ E.ethType = ETH_P_ARP ∧ Bumped 0x0806 m.pktCounts t) ∨
      ((∀ E : EthFrame, E.encode = f → E.ethType ≠ ETH_P_IPV6 ∧ E.ethType ≠ ETH_P_ARP) ∧
        t = m.pktCounts))

section Grammar

variable (cfg : KwatchRuntimeConfig) (h : Helpers) (f : Frame) (m : Maps)

theorem accountFlow_fst_isSome (key : KwatchFlowKey) (tcpFlags : UInt8)
    (flows : Table KwatchFlowKey KwatchFlowStats) :
    ((accountFlow cfg h key tcpFlags flows).1.get? key).isSome := by
  unfold accountFlow
  cases flows.get? key <;> simp

theorem calls_ipv4 {ip : Ipv4View} (hv : frameView f = .ipv4 ip) :
    (Calls.xdpKwatchProg cfg f).calls (xdpSys h) m = .lookupBlacklist ip.src ::
      (Calls.packetAccesses cfg f ip (isBlacklisted m.blacklist ip)).calls (xdpSys h) m := by
  rw [Calls.xdpKwatchProg_eq, hv]
  simp only [Calls.ipv4Packet_eq]
  rfl

theorem takenAs (F : Ipv4Frame) (hF : F.encode = f) : TakenAs F.ip m
    ((Calls.xdpKwatchProg cfg f).calls (xdpSys h) m) (runView cfg h f m (frameView f)).1
    (runView cfg h f m (frameView f)).2 := by
  have hv : frameView f = .ipv4 F.view := hF ▸ frameView_encode F
  have hb : isBlacklisted m.blacklist F.view = true ↔
      ∃ n ∈ m.blacklist.networks, InNetwork F.ip.saddr n := LpmTrie.lookup_host_isSome_iff ..
  have hact : (runView cfg h f m (frameView f)).1 =
      if isBlacklisted m.blacklist F.view then .XDP_DROP else .XDP_PASS := by
    rw [hv]
    by_cases hb : isBlacklisted m.blacklist F.view <;> simp [runView, hb]
  have hcalls := calls_ipv4 cfg h f m hv
  have huses := Calls.uses_packetAccesses cfg f F.view (isBlacklisted m.blacklist F.view)
  have hmem := Calls.calls_packetAccesses cfg f F.view h m (isBlacklisted m.blacklist F.view)
  have hcounts := runView_pktCounts cfg h f m (frameView f)
  have hflows := runView_flowState cfg h f m (frameView f)
  rw [hcalls]
  constructor
  · rw [hact]
    simp only [hb]
  · exact List.mem_cons_self
  · intro c hc
    rcases List.mem_cons.mp hc with rfl | hc
    · rfl
    · have hcarry := Calls.MayAccess.carries (huses.of_mem_calls hc)
      rw [hact]
      cases hbl : isBlacklisted m.blacklist F.view <;> simpa [hbl] using hcarry
  · rw [hcounts, hact, hv]
    cases hbl : isBlacklisted m.blacklist F.view <;> simp only [counterClass, hbl]
    · exact bumped_incCount _ _
    · exact bumped_incCount _ _
  · intro hpass
    have hbl : isBlacklisted m.blacklist F.view = false := by
      rw [hact] at hpass
      by_contra hne
      simp [hne] at hpass
    refine ⟨keyOf f F.view, List.mem_cons_of_mem _ (hmem.2 hbl), ?_⟩
    rw [hflows, hv]
    simp only [acceptedPacket, hbl]
    exact accountFlow_fst_isSome cfg h _ _ _
  · exact List.mem_cons_of_mem _ hmem.1

theorem calls_other (hf : ¬∃ F : Ipv4Frame, F.encode = f) :
    (Calls.xdpKwatchProg cfg f).Uses fun c => ¬c.ForIpv4 := by
  rw [Calls.xdpKwatchProg_eq]
  cases hv : frameView f with
  | ignored => trivial
  | sentinel k =>
    obtain ⟨E, -, ⟨-, rfl⟩ | ⟨-, rfl⟩⟩ := frameView_eq_sentinel_iff.mp hv
    all_goals
      apply Prog.Uses.bind
      · apply Calls.uses_incCount <;> simp only [XdpCall.ForIpv4] <;> decide
      · intro _
        trivial
  | ipv4 ip =>
    obtain ⟨F, hF, -⟩ := frameView_eq_ipv4_iff.mp hv
    exact absurd ⟨F, hF⟩ hf

theorem passesBy (hf : ¬∃ F : Ipv4Frame, F.encode = f) : PassesBy f m
    (runView cfg h f m (frameView f)).1 (runView cfg h f m (frameView f)).2 := by
  cases hv : frameView f with
  | ignored =>
    refine ⟨rfl, m.pktCounts, rfl, Or.inr (Or.inr ⟨fun E hE => ?_, rfl⟩)⟩
    by_contra hty
    rw [not_and_or, not_not, not_not] at hty
    rcases hty with hty | hty
    · have := frameView_eq_sentinel_iff.mpr ⟨E, hE, Or.inl ⟨hty, rfl⟩⟩
      rw [hv] at this
      cases this
    · have := frameView_eq_sentinel_iff.mpr ⟨E, hE, Or.inr ⟨hty, rfl⟩⟩
      rw [hv] at this
      cases this
  | sentinel k =>
    refine ⟨rfl, incCount k m.pktCounts, rfl, ?_⟩
    obtain ⟨E, hE, ⟨hty, rfl⟩ | ⟨hty, rfl⟩⟩ := frameView_eq_sentinel_iff.mp hv
    · exact Or.inl ⟨E, hE, hty, bumped_incCount _ _⟩
    · exact Or.inr (Or.inl ⟨E, hE, hty, bumped_incCount _ _⟩)
  | ipv4 ip =>
    obtain ⟨F, hF, -⟩ := frameView_eq_ipv4_iff.mp hv
    exact absurd ⟨F, hF⟩ hf

theorem dropped_flows (F : Ipv4Frame) (hF : F.encode = f)
    (hdrop : (runView cfg h f m (frameView f)).1 = .XDP_DROP) :
    ∀ c ∈ (Calls.xdpKwatchProg cfg f).calls (xdpSys h) m, c.flowKey? = none := by
  have ht := takenAs cfg h f m F hF
  intro c hc
  have hcarry := ht.carries c hc
  rw [if_pos hdrop] at hcarry
  cases c <;> first | rfl | exact absurd hcarry.1 (by decide)

/-- On every frame and every state of the maps the program ends without a load outside the
frame. It drops a frame, or makes an access that needs an IPv4 packet, only if the frame is one
of the grammar; it takes every frame of the grammar as the packet it encodes, leaving flows and
other counters alone when it drops it; every other frame passes. -/
theorem xdpKwatchProg_grammar : ∃ a m', xdpKwatchProg cfg h f m = some (a, m') ∧
    (Calls.xdpKwatchProg cfg f).run (xdpSys h) m = (some a, m') ∧
    ((a = .XDP_DROP ∨ ∃ c ∈ (Calls.xdpKwatchProg cfg f).calls (xdpSys h) m, c.ForIpv4) →
      ∃ F : Ipv4Frame, F.encode = f) ∧
    (∀ F : Ipv4Frame, F.encode = f →
      TakenAs F.ip m ((Calls.xdpKwatchProg cfg f).calls (xdpSys h) m) a m') ∧
    ((¬∃ F : Ipv4Frame, F.encode = f) → PassesBy f m a m') ∧
    (a = .XDP_DROP → m'.flowState = m.flowState ∧
      (∀ c ∈ (Calls.xdpKwatchProg cfg f).calls (xdpSys h) m, c.flowKey? = none) ∧
      ∀ k ≠ 0xFFFF, m'.pktCounts.get? k = m.pktCounts.get? k) := by
  have hdrop : (runView cfg h f m (frameView f)).1 = .XDP_DROP →
      ∃ F : Ipv4Frame, F.encode = f := by
    intro hd
    obtain ⟨ip, hv, -⟩ := (runView_drop_iff ..).mp hd
    obtain ⟨F, hF, -⟩ := frameView_eq_ipv4_iff.mp hv
    exact ⟨F, hF⟩
  refine ⟨(runView cfg h f m (frameView f)).1, (runView cfg h f m (frameView f)).2,
    xdpKwatchProg_eq cfg h f m, Calls.run_xdpKwatchProg h m cfg f, ?_,
    takenAs cfg h f m, passesBy cfg h f m, ?_⟩
  · rintro (hd | ⟨c, hc, hip⟩)
    · exact hdrop hd
    · by_contra hf
      exact (calls_other cfg f hf).of_mem_calls hc hip
  · intro hd
    obtain ⟨F, hF⟩ := hdrop hd
    have ht := takenAs cfg h f m F hF
    obtain ⟨ip, hv, hb⟩ := (runView_drop_iff ..).mp hd
    refine ⟨?_, dropped_flows cfg h f m F hF hd, ?_⟩
    · rw [runView_flowState, hv]
      simp [acceptedPacket, hb]
    · have hcounted := ht.counted
      rw [if_pos hd] at hcounted
      exact hcounted.others

end Grammar

end KWatch
