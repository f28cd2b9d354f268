import KWatch.Xdp.Transport

/-! # Transport headers outside the datagram

The program looks for a transport header behind the IPv4 header of every packet, and checks no
more than that the frame is long enough. In a later fragment the bytes there are payload, and
behind the total length they are padding: their ports and flags are kept unless they are all zero.
-/

namespace KWatch

/-- The offset of a fragment in units of 8 bytes; the other bits of the field are flags. -/
def Ipv4Header.fragmentOffset (H : Ipv4Header) : ℕ := H.fragOff.toNat % 2 ^ 13

/-- The length of the fixed header that has the ports of a protocol. -/
def fixedHeaderLength (protocol : UInt8) : ℕ :=
  if protocol = IPPROTO_TCP then 20 else if protocol = IPPROTO_UDP then 8 else 0

/-- The datagram has a transport header: it is no later fragment, and its total length covers the
fixed header. -/
structure Ipv4Header.HasTransport (H : Ipv4Header) : Prop where
  first : H.fragmentOffset = 0
  inside : 4 * H.ihl + fixedHeaderLength H.protocol ≤ H.totLen.toNat

/-- There is nothing to take for ports and flags behind the IPv4 header: the frame is too short for
a transport header, or the bytes in their places are zero. -/
structure Ipv4Frame.ZeroTransport (F : Ipv4Frame) : Prop where
  tcp : F.ip.protocol = IPPROTO_TCP → 20 ≤ F.rest.length → ∀ i ∈ [0, 1, 2, 3, 13], F.rest[i]? = some 0
  udp : F.ip.protocol = IPPROTO_UDP → 8 ≤ F.rest.length → ∀ i ∈ [0, 1, 2, 3], F.rest[i]? = some 0

/-- An access that keeps no port and no flag, and counts no SYN or ACK. -/
def XdpCall.NoTransport : XdpCall → Prop
  | .submit e => e.sport = 0 ∧ e.dport = 0 ∧ e.tcpFlags = 0
  | .insertFlow key s => (key.sport = 0 ∧ key.dport = 0) ∧ s.synCount = 0 ∧ s.ackCount = 0
  | .lookupFlow key | .restartFlow key _ | .touchFlow key _ => key.sport = 0 ∧ key.dport = 0
  | .addSyn _ | .addAck _ => False
  | _ => True

/-! ### The bytes and the fields -/

theorem wire16_eq_zero_iff (x : UInt16) : wire16 x = [0, 0] ↔ x = 0 := by
  constructor
  · intro h
    have hle := congrArg UInt8.toNat (List.cons.inj h).1
    have hhi := congrArg UInt8.toNat (List.cons.inj (List.cons.inj h).2).1
    have hx := x.toNat_lt
    simp only [UInt8.toNat_ofNat'] at hle hhi
    apply UInt16.toNat_inj.mp
    change x.toNat / 256 % 256 = 0 at hle
    change x.toNat % 256 % 256 = 0 at hhi
    change x.toNat = 0
    omega
  · rintro rfl
    rfl

/-- The ports at the start of a payload are zero when their bytes are. -/
theorem ports_zero_iff (source dest : UInt16) (r : Frame) :
    (∀ i ∈ [0, 1, 2, 3], (wire16 source ++ (wire16 dest ++ r))[i]? = some 0) ↔
      source = 0 ∧ dest = 0 := by
  rw [← wire16_eq_zero_iff source, ← wire16_eq_zero_iff dest]
  obtain ⟨s₀, s₁, hs⟩ : ∃ s₀ s₁, wire16 source = [s₀, s₁] := ⟨_, _, rfl⟩
  obtain ⟨d₀, d₁, hd⟩ : ∃ d₀ d₁, wire16 dest = [d₀, d₁] := ⟨_, _, rfl⟩
  rw [hs, hd]
  simp [and_assoc]

theorem TcpHeader.zero_iff (T : TcpHeader) (r : Frame) :
    (∀ i ∈ [0, 1, 2, 3, 13], (T.encode ++ r)[i]? = some 0) ↔
      T.source = 0 ∧ T.dest = 0 ∧ T.flags = 0 := by
  have hports := ports_zero_iff T.source T.dest (T.seqAckOff ++ T.flags :: T.winCheckUrg ++ r)
  have hflags : (T.encode ++ r)[13]? = some T.flags := (T.loads r).2.2
  have hsplit : T.encode ++ r = wire16 T.source ++
      (wire16 T.dest ++ (T.seqAckOff ++ T.flags :: T.winCheckUrg ++ r)) := by
    simp [TcpHeader.encode]
  rw [← hsplit] at hports
  change (∀ i ∈ [0, 1, 2, 3] ++ [13], (T.encode ++ r)[i]? = some 0) ↔ _
  rw [List.forall_mem_append, hports, List.forall_mem_singleton, hflags, Option.some.injEq, and_assoc]

theorem UdpHeader.zero_iff (U : UdpHeader) (r : Frame) :
    (∀ i ∈ [0, 1, 2, 3], (U.encode ++ r)[i]? = some 0) ↔ U.source = 0 ∧ U.dest = 0 := by
  have hports := ports_zero_iff U.source U.dest (U.lenCheck ++ r)
  rw [← hports, UdpHeader.encode, List.append_assoc, List.append_assoc]

namespace Ipv4Frame

variable (F : Ipv4Frame)

theorem transport_of_other (h : F.ip.protocol ≠ IPPROTO_TCP) (h' : F.ip.protocol ≠ IPPROTO_UDP) :
    F.transport.sport = 0 ∧ F.transport.dport = 0 ∧ F.transport.tcpFlags = 0 := by
  have hproto : F.view.proto = F.ip.protocol := rfl
  simp [transport, flowFieldsOf, flowFields, hproto, h, h']

/-- The parsed ports and flags are zero exactly if there is nothing to take for them. -/
theorem zeroTransport_iff : F.ZeroTransport ↔
    F.transport.sport = 0 ∧ F.transport.dport = 0 ∧ F.transport.tcpFlags = 0 := by
  have hd := F.decodes_transport
  by_cases htcp : F.ip.protocol = IPPROTO_TCP
  · have hudp : F.ip.protocol ≠ IPPROTO_UDP := by rw [htcp]; decide
    have hicmp : F.ip.protocol ≠ IPPROTO_ICMP := by rw [htcp]; decide
    by_cases hlen : 20 ≤ F.rest.length
    · obtain ⟨T, r, hr⟩ := (exists_tcp_iff F.rest).mpr hlen
      rw [hd.tcp htcp T r hr, ← T.zero_iff r, ← hr]
      exact ⟨fun h => h.tcp htcp hlen, fun h => ⟨fun _ _ => h, fun hu => absurd hu hudp⟩⟩
    · rw [hd.incomplete (fun _ => not_le.mp hlen) (fun h => absurd h (not_or.mpr ⟨hudp, hicmp⟩))]
      exact ⟨fun _ => ⟨rfl, rfl, rfl⟩,
        fun _ => ⟨fun _ hl => absurd hl hlen, fun hu => absurd hu hudp⟩⟩
  · by_cases hudp : F.ip.protocol = IPPROTO_UDP
    · by_cases hlen : 8 ≤ F.rest.length
      · obtain ⟨U, r, hr⟩ := (exists_udp_iff F.rest).mpr hlen
        rw [hd.udp hudp U r hr]
        have hzero := U.zero_iff r
        rw [← hr] at hzero
        constructor
        · intro h
          obtain ⟨hs, ht⟩ := hzero.mp (h.udp hudp hlen)
          exact ⟨hs, ht, rfl⟩
        · rintro ⟨hs, ht, -⟩
          exact ⟨fun h => absurd h htcp, fun _ _ => hzero.mpr ⟨hs, ht⟩⟩
      · rw [hd.incomplete (fun h => absurd h htcp) (fun _ => not_le.mp hlen)]
        exact ⟨fun _ => ⟨rfl, rfl, rfl⟩,
          fun _ => ⟨fun h => absurd h htcp, fun _ hl => absurd hl hlen⟩⟩
    · exact ⟨fun _ => F.transport_of_other htcp hudp,
        fun _ => ⟨fun h => absurd h htcp, fun h => absurd h hudp⟩⟩

end Ipv4Frame

/-! ### What a run keeps -/

namespace Calls

theorem uses_accountFlow_noTransport (cfg : KwatchRuntimeConfig) {key : KwatchFlowKey}
    (hkey : key.sport = 0 ∧ key.dport = 0) : (accountFlow cfg key 0).Uses XdpCall.NoTransport := by
  simp only [accountFlow, access, Prog.step_bind, Prog.uses_call]
  refine ⟨hkey, fun stats => ⟨trivial, fun now => ?_⟩⟩
  cases stats with
  | none =>
    have hnew : (newFlowStats now 0).synCount = 0 ∧ (newFlowStats now 0).ackCount = 0 := by
      simp [newFlowStats]
    exact ⟨⟨hkey, hnew⟩, fun _ => trivial⟩
  | some s =>
    dsimp only
    split_ifs <;> simp_all [XdpCall.NoTransport]

theorem uses_packetAccesses_noTransport (cfg : KwatchRuntimeConfig) {F : Ipv4Frame}
    (hF : F.ZeroTransport) (blacklisted : Bool) :
    (packetAccesses cfg F.encode F.view blacklisted).Uses XdpCall.NoTransport := by
  obtain ⟨hsport, hdport, hflags⟩ := F.zeroTransport_iff.mp hF
  have hcount (k : UInt32) : (incCount k).Uses XdpCall.NoTransport :=
    uses_incCount trivial trivial trivial
  have hemit (action : UInt8) (isNew : Bool) :
      (emitEvent cfg F.encode F.view action isNew).Uses XdpCall.NoTransport := by
    apply uses_emitEvent cfg F.encode F.view action isNew trivial trivial trivial trivial
    intro ts
    rw [eventOf_encode]
    exact ⟨hsport, hdport, hflags⟩
  cases blacklisted with
  | true =>
    apply (hcount 0xFFFF).bind
    intro _
    apply (hemit 1 true).bind
    intro _
    trivial
  | false =>
    apply (hcount _).bind
    intro _
    have haccount : (accountFlow cfg (keyOf F.encode F.view)
        (flowFieldsOf F.encode F.view).tcpFlags).Uses XdpCall.NoTransport := by
      have hzero : (flowFieldsOf F.encode F.view).tcpFlags = 0 := hflags
      rw [hzero]
      exact uses_accountFlow_noTransport cfg ⟨hsport, hdport⟩
    apply haccount.bind
    intro isNew
    apply (hemit 0 isNew).bind
    intro _
    trivial

end Calls

/-- What the kernel answers when the draw is 0 and the ring has room: an event is submitted. -/
def alwaysEmits : Helpers := ⟨0, 0, 0, false, []⟩

section Runs

variable (cfg : KwatchRuntimeConfig) (m : Maps) (F : Ipv4Frame)

theorem shouldEmit_zero (sampleN : UInt32) (isNew : Bool) :
    kwatchShouldEmitEvent sampleN 0 isNew = true := by
  unfold kwatchShouldEmitEvent
  split
  · rfl
  · simp

theorem submit_mem_calls : ∃ action, .submit (eventOf F.encode F.view 0 action) ∈
    (Calls.xdpKwatchProg cfg F.encode).calls (xdpSys alwaysEmits) m := by
  have hemit (action : UInt8) (isNew : Bool) (m : Maps) :
      .submit (eventOf F.encode F.view 0 action) ∈
        (Calls.emitEvent cfg F.encode F.view action isNew).calls (xdpSys alwaysEmits) m := by
    simp [Calls.emitEvent, access, xdpSys, alwaysEmits, shouldEmit_zero, eventRecord_eq]
  cases hb : isBlacklisted m.blacklist F.view with
  | true =>
    refine ⟨1, (mem_calls_encode cfg alwaysEmits m F).mpr (Or.inr ?_)⟩
    simp [Calls.packetAccesses, hb, hemit]
  | false =>
    refine ⟨0, (mem_calls_encode cfg alwaysEmits m F).mpr (Or.inr ?_)⟩
    simp [Calls.packetAccesses, hb, hemit]

/-- For a datagram without a transport header the program keeps no port or flag and counts no SYN
or ACK, whatever the kernel answers, exactly if there is nothing behind the IPv4 header that it
could take for them. -/
theorem transport_only_from_header_iff :
    (¬F.ip.HasTransport → ∀ h, ∀ c ∈ (Calls.xdpKwatchProg cfg F.encode).calls (xdpSys h) m,
      c.NoTransport) ↔ F.ip.HasTransport ∨ F.ZeroTransport := by
  constructor
  · intro h
    by_cases hreal : F.ip.HasTransport
    · exact Or.inl hreal
    · obtain ⟨action, hsub⟩ := submit_mem_calls cfg m F
      have hzero := h hreal alwaysEmits _ hsub
      rw [eventOf_encode] at hzero
      exact Or.inr (F.zeroTransport_iff.mpr hzero)
  · rintro (hreal | hzero) hno h c hc
    · exact absurd hreal hno
    · rcases (mem_calls_encode cfg h m F).mp hc with rfl | hc
      · trivial
      · exact (Calls.uses_packetAccesses_noTransport cfg hzero _).of_mem_calls hc

end Runs

/-- The second fragment of a TCP packet, with a payload that looks like a SYN. -/
def fragmentSyn : Ipv4Frame := { lateSyn with ip := { lateSyn.ip with fragOff := 185 } }

/-- The payload of a later fragment is counted as a SYN, and its bytes are kept as ports. -/
theorem fragment_counted_as_syn : ¬fragmentSyn.ip.HasTransport ∧
    .insertFlow restartKey ⟨1, 0, 100, 100⟩ ∈ (Calls.xdpKwatchProg ⟨1, 10⟩ fragmentSyn.encode).calls
      (xdpSys ⟨100, 100, 0, false, []⟩) Maps.empty ∧
    ¬∀ h, ∀ c ∈ (Calls.xdpKwatchProg ⟨1, 10⟩ fragmentSyn.encode).calls (xdpSys h) Maps.empty,
      c.NoTransport := by
  have hmem : .insertFlow restartKey ⟨1, 0, 100, 100⟩ ∈
      (Calls.xdpKwatchProg ⟨1, 10⟩ fragmentSyn.encode).calls (xdpSys ⟨100, 100, 0, false, []⟩)
        Maps.empty := by
    decide +kernel
  refine ⟨fun h => absurd h.first (by decide), hmem, fun hall => ?_⟩
  exact absurd (hall _ _ hmem).2.1 (by decide)

end KWatch
