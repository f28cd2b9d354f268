import KWatch.Wire.Transport
import KWatch.Xdp.Grammar

/-! # The transport header of a packet

The program parses the transport header twice, for the flow accounting and for the event. Both
parses read the header behind the options of the IPv4 header, and both take a header that is not
complete in the frame as all zeros.
-/

namespace KWatch

/-- What an event and a flow record keep of a transport header. -/
structure TransportFields where
  sport : UInt16
  dport : UInt16
  tcpFlags : UInt8
  icmpType : UInt8
  icmpCode : UInt8
  deriving DecidableEq, Repr

/-- The fields are those of the complete header at the start of a payload, and zero where the
protocol has no such field or the header is not complete. -/
structure Decodes (protocol : UInt8) (payload : Frame) (d : TransportFields) : Prop where
  tcp : protocol = IPPROTO_TCP → ∀ (T : TcpHeader) (r : Frame), payload = T.encode ++ r →
    d = ⟨T.source, T.dest, T.flags, 0, 0⟩
  udp : protocol = IPPROTO_UDP → ∀ (U : UdpHeader) (r : Frame), payload = U.encode ++ r →
    d = ⟨U.source, U.dest, 0, 0, 0⟩
  icmp : protocol = IPPROTO_ICMP → ∀ (I : IcmpHeader) (r : Frame), payload = I.encode ++ r →
    d = ⟨0, 0, 0, I.type, I.code⟩
  incomplete : (protocol = IPPROTO_TCP → payload.length < 20) →
    (protocol = IPPROTO_UDP ∨ protocol = IPPROTO_ICMP → payload.length < 8) →
    d = ⟨0, 0, 0, 0, 0⟩

/-! ### Loads behind the IPv4 header -/

namespace Ipv4Frame

variable (F : Ipv4Frame)

theorem encode_l4 : ∃ p : Frame, F.encode = p ++ F.rest ∧ F.view.l4 = p.length := by
  refine ⟨F.toEth.header ++ F.ip.encode, ?_, ?_⟩
  · rw [encode_eq, List.append_assoc]
  · simp only [view, Ipv4Header.view, List.length_append, Ipv4Header.length_encode]
    omega

theorem length_l4 : F.encode.length = F.view.l4 + F.rest.length := by
  obtain ⟨p, hp, hl⟩ := F.encode_l4
  rw [hp, hl, List.length_append]

theorem load8_l4 (off : ℕ) : load8 F.encode (F.view.l4 + off) = load8 F.rest off := by
  obtain ⟨p, hp, hl⟩ := F.encode_l4
  rw [hp, hl, load8_append_right]

theorem load16_l4 (off : ℕ) : load16 F.encode (F.view.l4 + off) = load16 F.rest off := by
  simp only [load16, Nat.add_assoc, load8_l4]

/-- The transport fields of a frame as the two parses have them. -/
def transport : TransportFields :=
  let t := flowFieldsOf F.encode F.view
  let i := icmpFieldsOf F.encode F.view
  ⟨t.sport, t.dport, t.tcpFlags, i.1, i.2⟩

end Ipv4Frame

/-! ### The headers -/

/-- The port at an offset, when the bytes before it are known. -/
theorem load16_wire16 {p : Frame} {off : ℕ} (hp : p.length = off) (x : UInt16) (r : Frame) :
    ∃ y, load16 (p ++ (wire16 x ++ r)) off = some y ∧ bpfNtohs y = x :=
  ⟨_, load16_at hp _ _ r, bpfNtohs_le16_wire16 x⟩

theorem load8_at {p : Frame} {off : ℕ} (hp : p.length = off) (b : UInt8) (r : Frame) :
    load8 (p ++ b :: r) off = some b := by
  subst hp
  exact load8_append_right p (b :: r) 0

theorem TcpHeader.loads (T : TcpHeader) (r : Frame) :
    (∃ y, load16 (T.encode ++ r) 0 = some y ∧ bpfNtohs y = T.source) ∧
      (∃ y, load16 (T.encode ++ r) 2 = some y ∧ bpfNtohs y = T.dest) ∧
      load8 (T.encode ++ r) 13 = some T.flags := by
  have hflags : T.encode ++ r =
      (wire16 T.source ++ wire16 T.dest ++ T.seqAckOff) ++ T.flags :: (T.winCheckUrg ++ r) := by
    simp [encode]
  refine ⟨?_, ?_, ?_⟩
  · rw [encode, List.append_assoc]
    exact load16_wire16 (p := []) rfl _ _
  · rw [encode, List.append_assoc, List.append_assoc]
    exact load16_wire16 (length_wire16 _) _ _
  · rw [hflags]
    apply load8_at
    simp [T.seqAckOff_length]

theorem UdpHeader.loads (U : UdpHeader) (r : Frame) :
    (∃ y, load16 (U.encode ++ r) 0 = some y ∧ bpfNtohs y = U.source) ∧
      ∃ y, load16 (U.encode ++ r) 2 = some y ∧ bpfNtohs y = U.dest := by
  constructor
  · rw [encode, List.append_assoc]
    exact load16_wire16 (p := []) rfl _ _
  · rw [encode, List.append_assoc, List.append_assoc]
    exact load16_wire16 (length_wire16 _) _ _

namespace Ipv4Frame

variable (F : Ipv4Frame)

theorem flowFields_l4 : flowFields F.encode F.view =
    flowFields F.rest { F.view with l4 := 0 } := by
  have h16 := F.load16_l4 0
  rw [Nat.add_zero] at h16
  have hle (n : ℕ) : F.view.l4 + n ≤ F.encode.length ↔ 0 + n ≤ F.rest.length := by
    rw [F.length_l4]
    omega
  simp only [flowFields, h16, load16_l4, load8_l4, hle, Nat.zero_add]

theorem icmpFieldsOf_l4 : icmpFieldsOf F.encode F.view =
    icmpFieldsOf F.rest { F.view with l4 := 0 } := by
  have h8 := F.load8_l4 0
  rw [Nat.add_zero] at h8
  have hle (n : ℕ) : F.view.l4 + n ≤ F.encode.length ↔ 0 + n ≤ F.rest.length := by
    rw [F.length_l4]
    omega
  simp only [icmpFieldsOf, h8, load8_l4, hle, Nat.zero_add]

/-- Both parses decode the transport header of the frame. -/
theorem decodes_transport : Decodes F.ip.protocol F.rest F.transport := by
  have hproto : F.view.proto = F.ip.protocol := rfl
  simp only [transport, flowFieldsOf, flowFields_l4, icmpFieldsOf_l4]
  constructor
  · intro hp T r hr
    obtain ⟨⟨s, hs, hs'⟩, ⟨d, hd, hd'⟩, hb⟩ := T.loads r
    simp [flowFields, icmpFieldsOf, hproto, hp, hr, hs, hs', hd, hd', hb, IPPROTO_TCP,
      IPPROTO_ICMP]
  · intro hp U r hr
    obtain ⟨⟨s, hs, hs'⟩, ⟨d, hd, hd'⟩⟩ := U.loads r
    simp [flowFields, icmpFieldsOf, hproto, hp, hr, hs, hs', hd, hd', IPPROTO_TCP, IPPROTO_UDP,
      IPPROTO_ICMP]
  · intro hp I r hr
    simp [flowFields, icmpFieldsOf, hproto, hp, hr, load8, IcmpHeader.encode, I.checkRest_length,
      IPPROTO_TCP, IPPROTO_UDP, IPPROTO_ICMP]
  · intro htcp hrest
    have hflow : flowFields F.rest { F.view with l4 := 0 } = some ⟨0, 0, 0⟩ := by
      simp only [flowFields, hproto, Nat.zero_add]
      split_ifs with ht hl hu hl
      · exact absurd (htcp ht) (by omega)
      · rfl
      · exact absurd (hrest (Or.inl hu)) (by omega)
      · rfl
      · rfl
    have hicmp : icmpFieldsOf F.rest { F.view with l4 := 0 } = (0, 0) := by
      simp only [icmpFieldsOf, hproto, Nat.zero_add]
      rw [if_neg]
      rintro ⟨hp, hl⟩
      exact absurd (hrest (Or.inr hp)) (by omega)
    rw [hflow, hicmp]
    rfl

end Ipv4Frame

/-! ### Events and flow records -/

/-- The SYN and ACK counts that a packet adds to: none for a new flow or when the packet restarts
the counting window of its flow. -/
def countsBefore (cfg : KwatchRuntimeConfig) (now : UInt64) : Option KwatchFlowStats → UInt32 × UInt32
  | none => (0, 0)
  | some s =>
    if 0 < cfg.synWindowNs ∧ s.firstSeenNs < now ∧ cfg.synWindowNs < now - s.firstSeenNs then (0, 0)
    else (s.synCount, s.ackCount)

def flagBit (tcpFlags mask : UInt8) : UInt32 := if tcpFlags &&& mask ≠ 0 then 1 else 0

/-- The SYN and ACK counts after a packet with the given flags. -/
def countsAfter (counts : UInt32 × UInt32) (tcpFlags : UInt8) : UInt32 × UInt32 :=
  (counts.1 + flagBit tcpFlags 0x02, counts.2 + flagBit tcpFlags 0x10)

theorem accountFlow_counts (cfg : KwatchRuntimeConfig) (h : Helpers) (key : KwatchFlowKey)
    (tcpFlags : UInt8) (flows : Table KwatchFlowKey KwatchFlowStats) :
    ∃ s, (accountFlow cfg h key tcpFlags flows).1.get? key = some s ∧
      (s.synCount, s.ackCount) =
        countsAfter (countsBefore cfg h.nowNs (flows.get? key)) tcpFlags := by
  unfold accountFlow
  cases hs : flows.get? key with
  | none =>
    refine ⟨newFlowStats h.nowNs tcpFlags, by simp, ?_⟩
    simp [newFlowStats, countsAfter, countsBefore, flagBit]
  | some s =>
    refine ⟨updateFlowStats cfg h.nowNs tcpFlags s, by simp, ?_⟩
    simp only [updateFlowStats, restartWindow, countsAfter, countsBefore, flagBit]
    split_ifs <;> simp

/-- The record of an event with the given header and transport fields. -/
def eventWith (H : Ipv4Header) (d : TransportFields) (ts : UInt64) (action : UInt8) : KwatchEvent :=
  ⟨ts, H.saddr, H.daddr, d.sport, d.dport, H.protocol, d.tcpFlags, H.ttl, action, d.icmpType,
    d.icmpCode⟩

/-- The key of a flow with the given header and transport fields. -/
def keyWith (H : Ipv4Header) (d : TransportFields) : KwatchFlowKey :=
  ⟨H.saddr, H.daddr, d.sport, d.dport, H.protocol⟩

theorem eventOf_encode (F : Ipv4Frame) (ts : UInt64) (action : UInt8) :
    eventOf F.encode F.view ts action = eventWith F.ip F.transport ts action :=
  eventOf_eq ..

theorem keyOf_encode (F : Ipv4Frame) : keyOf F.encode F.view = keyWith F.ip F.transport := rfl

/-- What the program keeps of an IPv4 frame: its events and its flow key carry the header fields
and one decoded transport header, and an accepted packet moves the counts of its flow by the flags
of that header. -/
structure Keeps (cfg : KwatchRuntimeConfig) (h : Helpers) (m : Maps) (F : Ipv4Frame)
    (d : TransportFields) (calls : List XdpCall) (a : XdpAction) (m' : Maps) : Prop where
  decodes : Decodes F.ip.protocol F.rest d
  events : ∀ e, .submit e ∈ calls → ∃ ts action, e = eventWith F.ip d ts action
  keys : ∀ c ∈ calls, ∀ key, c.flowKey? = some key → key = keyWith F.ip d
  counts : a = .XDP_PASS → .lookupFlow (keyWith F.ip d) ∈ calls ∧
    ∃ s, m'.flowState.get? (keyWith F.ip d) = some s ∧ (s.synCount, s.ackCount) =
      countsAfter (countsBefore cfg h.nowNs (m.flowState.get? (keyWith F.ip d))) d.tcpFlags

section Agreement

variable (cfg : KwatchRuntimeConfig) (h : Helpers) (m : Maps) (F : Ipv4Frame)

theorem mem_calls_encode {c : XdpCall} :
    c ∈ (Calls.xdpKwatchProg cfg F.encode).calls (xdpSys h) m ↔ c = .lookupBlacklist F.ip.saddr ∨
      c ∈ (Calls.packetAccesses cfg F.encode F.view (isBlacklisted m.blacklist F.view)).calls
        (xdpSys h) m := by
  rw [calls_ipv4 cfg h F.encode m (frameView_encode F), List.mem_cons]
  rfl

theorem may_of_mem_calls {c : XdpCall}
    (hc : c ∈ (Calls.xdpKwatchProg cfg F.encode).calls (xdpSys h) m) :
    c = .lookupBlacklist F.ip.saddr ∨
      Calls.MayAccess F.encode F.view (isBlacklisted m.blacklist F.view) c := by
  rcases (mem_calls_encode cfg h m F).mp hc with rfl | hc
  · exact Or.inl rfl
  · exact Or.inr ((Calls.uses_packetAccesses ..).of_mem_calls hc)

/-- On every frame of the IPv4 grammar the event and the flow record decode the same transport
header, which is the one in the frame. -/
theorem transport_decoded : ∃ a m',
    (Calls.xdpKwatchProg cfg F.encode).run (xdpSys h) m = (some a, m') ∧
    ∃ d, Keeps cfg h m F d ((Calls.xdpKwatchProg cfg F.encode).calls (xdpSys h) m) a m' := by
  refine ⟨(runView cfg h F.encode m (.ipv4 F.view)).1, (runView cfg h F.encode m (.ipv4 F.view)).2,
    ?_, F.transport, F.decodes_transport, ?_, ?_, ?_⟩
  · rw [Calls.run_xdpKwatchProg, frameView_encode]
  · intro e he
    rcases may_of_mem_calls cfg h m F he with he | ⟨ts, rfl⟩
    · cases he
    · exact ⟨ts, _, eventOf_encode F ts _⟩
  · intro c hc key hkey
    rcases may_of_mem_calls cfg h m F hc with rfl | hmay
    · cases hkey
    · rw [← keyOf_encode]
      cases c with
      | lookupFlow | insertFlow | restartFlow | touchFlow | addSyn | addAck =>
        cases hkey
        exact hmay.2
      | _ => cases hkey
  · intro hpass
    have hb : isBlacklisted m.blacklist F.view = false := by
      by_contra hb
      rw [Bool.not_eq_false] at hb
      have hdrop := (runView_drop_iff cfg h F.encode m (.ipv4 F.view)).mpr ⟨F.view, rfl, hb⟩
      rw [hpass] at hdrop
      cases hdrop
    constructor
    · apply (mem_calls_encode cfg h m F).mpr
      exact Or.inr ((Calls.calls_packetAccesses cfg F.encode F.view h m _).2 hb)
    · rw [runView_flowState]
      simp only [acceptedPacket, hb, Bool.false_eq_true, if_false]
      exact accountFlow_counts cfg h _ _ _

end Agreement

/-! ### A restarted window -/

/-- A TCP SYN behind a header without options. -/
def lateSyn : Ipv4Frame where
  macs := List.replicate 12 0
  macs_length := rfl
  tag := none
  ip := ⟨5, by decide, by decide, 0, 40, 0, 0, 64, IPPROTO_TCP, 0, 0x0100000A, 0x0200000A, [], rfl⟩
  rest := [0x30, 0x39, 0, 80, 0, 0, 0, 0, 0, 0, 0, 0, 0x50, 0x02, 0, 0, 0, 0, 0, 0]

def restartKey : KwatchFlowKey := ⟨0x0100000A, 0x0200000A, 12345, 80, IPPROTO_TCP⟩

/-- A flow with five SYNs, first seen at time 1. -/
def fiveSyns : Maps :=
  { Maps.empty with flowState := Table.empty.set restartKey ⟨5, 0, 1, 1⟩ }

/-- A SYN that arrives after the counting window leaves a count of one, not of six. -/
theorem restart_drops_counts :
    let cfg : KwatchRuntimeConfig := ⟨1, 10⟩
    let h : Helpers := ⟨100, 100, 0, false, []⟩
    let calls := (Calls.xdpKwatchProg cfg lateSyn.encode).calls (xdpSys h) fiveSyns
    let m' := ((Calls.xdpKwatchProg cfg lateSyn.encode).run (xdpSys h) fiveSyns).2
    (∃ e, .submit e ∈ calls ∧ e.tcpFlags = 0x02) ∧ .lookupFlow restartKey ∈ calls ∧
      ∃ s s', fiveSyns.flowState.get? restartKey = some s ∧ m'.flowState.get? restartKey = some s' ∧
        (s'.synCount, s'.ackCount) ≠ countsAfter (s.synCount, s.ackCount) 0x02 := by
  refine ⟨⟨⟨100, 0x0100000A, 0x0200000A, 12345, 80, IPPROTO_TCP, 0x02, 64, 0, 0, 0⟩, ?_, rfl⟩, ?_,
    ⟨5, 0, 1, 1⟩, ⟨1, 0, 100, 100⟩, rfl, ?_, ?_⟩
  · decide +kernel
  · decide +kernel
  · decide +kernel
  · decide

end KWatch
