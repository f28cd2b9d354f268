import KWatch.Xdp.Program

/-! # What the program sees of a frame

The header checks load only inside the frame, so a run always has a value and depends on the
frame through a view of it: ignored, counted under a sentinel, or an IPv4 packet. The IPv4 view
exists exactly for the encodings of the frame grammar.
-/

namespace KWatch

/-- The outcome of the header checks. -/
inductive FrameView where
  | ignored
  | sentinel (k : UInt32)
  | ipv4 (ip : Ipv4View)
  deriving DecidableEq, Repr

def frameView (f : Frame) : FrameView :=
  match ethPayload f with
  | some (some (ethType, l3)) =>
    if ethType = ETH_P_IP then
      match ipHeader f l3 with
      | some (some ip) => .ipv4 ip
      | _ => .ignored
    else if ethType = ETH_P_IPV6 then .sentinel 0x86DD
    else if ethType = ETH_P_ARP then .sentinel 0x0806
    else .ignored
  | _ => .ignored

/-- The flow fields of a packet; the default is never used. -/
def flowFieldsOf (f : Frame) (ip : Ipv4View) : FlowFields := (flowFields f ip).getD ⟨0, 0, 0⟩

/-- The event record of a packet; the default is never used. -/
def eventOf (f : Frame) (ip : Ipv4View) (ts : UInt64) (action : UInt8) : KwatchEvent :=
  (eventRecord f ip ts action).getD ⟨ts, ip.src, ip.dst, 0, 0, ip.proto, 0, ip.ttl, action, 0, 0⟩

def keyOf (f : Frame) (ip : Ipv4View) : KwatchFlowKey := flowKey ip (flowFieldsOf f ip)

/-- Whether a packet's source is on the blacklist. -/
def isBlacklisted (t : LpmTrie) (ip : Ipv4View) : Bool := (t.lookup (hostKey ip.src)).isSome

/-- `emitEvent` with the record already built. -/
def emitRecord (cfg : KwatchRuntimeConfig) (h : Helpers) (e : KwatchEvent) (isNew : Bool)
    (m : Maps) : Maps :=
  if !kwatchShouldEmitEvent cfg.sampleN h.prandom isNew then m
  else if h.ringFull then incRingbufDrop m
  else { m with events := m.events ++ [e] }

/-- A run of the program on a viewed frame. -/
def runView (cfg : KwatchRuntimeConfig) (h : Helpers) (f : Frame) (m : Maps) :
    FrameView → XdpAction × Maps
  | .ignored => (.XDP_PASS, m)
  | .sentinel k => (.XDP_PASS, { m with pktCounts := incCount k m.pktCounts })
  | .ipv4 ip =>
    if isBlacklisted m.blacklist ip then
      (.XDP_DROP, emitRecord cfg h (eventOf f ip h.eventTsNs 1) true
        { m with pktCounts := incCount 0xFFFF m.pktCounts })
    else
      let flows := accountFlow cfg h (keyOf f ip) (flowFieldsOf f ip).tcpFlags m.flowState
      (.XDP_PASS, emitRecord cfg h (eventOf f ip h.eventTsNs 0) flows.2
        { m with pktCounts := incCount ip.proto.toUInt32 m.pktCounts, flowState := flows.1 })

/-! ### No load leaves the frame -/

theorem ethPayload_total (f : Frame) : ∃ r, ethPayload f = some r := by
  unfold ethPayload
  split
  · exact ⟨_, rfl⟩
  · obtain ⟨x, hx⟩ := load16_of_lt f 12 (by omega)
    rw [hx]
    simp only [Option.bind_eq_bind, Option.bind_some]
    split
    · split
      · exact ⟨_, rfl⟩
      · obtain ⟨y, hy⟩ := load16_of_lt f 16 (by omega)
        rw [hy]
        exact ⟨_, rfl⟩
    · exact ⟨_, rfl⟩

theorem ipHeader_total (f : Frame) (l3 : ℕ) : ∃ r, ipHeader f l3 = some r := by
  unfold ipHeader
  split
  · exact ⟨_, rfl⟩
  · obtain ⟨b, hb⟩ := load8_of_lt f l3 (by omega)
    obtain ⟨proto, hp⟩ := load8_of_lt f (l3 + 9) (by omega)
    obtain ⟨src, hs⟩ := load32_of_lt f (l3 + 12) (by omega)
    obtain ⟨dst, hd⟩ := load32_of_lt f (l3 + 16) (by omega)
    obtain ⟨ttl, ht⟩ := load8_of_lt f (l3 + 8) (by omega)
    simp only [hb, hp, hs, hd, ht, Option.bind_eq_bind, Option.bind_some]
    split_ifs <;> exact ⟨_, rfl⟩

/-- The two ports in front of a header. -/
theorem ports_total (f : Frame) (l4 : ℕ) (h : l4 + 4 ≤ f.length) :
    ∃ s d, load16 f l4 = some s ∧ load16 f (l4 + 2) = some d := by
  obtain ⟨s, hs⟩ := load16_of_lt f l4 (by omega)
  obtain ⟨d, hd⟩ := load16_of_lt f (l4 + 2) (by omega)
  exact ⟨s, d, hs, hd⟩

theorem flowFields_eq (f : Frame) (ip : Ipv4View) :
    flowFields f ip = some (flowFieldsOf f ip) := by
  suffices h : ∃ r, flowFields f ip = some r by
    obtain ⟨r, hr⟩ := h
    simp [flowFieldsOf, hr]
  unfold flowFields
  split_ifs with htcp hlen hudp hlen
  · obtain ⟨s, d, hs, hd⟩ := ports_total f ip.l4 (by omega)
    obtain ⟨b, hb⟩ := load8_of_lt f (ip.l4 + 13) (by omega)
    exact ⟨_, by simp [hs, hd, hb]; rfl⟩
  · exact ⟨_, rfl⟩
  · obtain ⟨s, d, hs, hd⟩ := ports_total f ip.l4 (by omega)
    exact ⟨_, by simp [hs, hd]; rfl⟩
  · exact ⟨_, rfl⟩
  · exact ⟨_, rfl⟩

theorem eventRecord_eq (f : Frame) (ip : Ipv4View) (ts : UInt64) (action : UInt8) :
    eventRecord f ip ts action = some (eventOf f ip ts action) := by
  suffices h : ∃ r, eventRecord f ip ts action = some r by
    obtain ⟨r, hr⟩ := h
    simp [eventOf, hr]
  unfold eventRecord
  split_ifs with htcp hlen hudp hlen hicmp hlen
  · obtain ⟨s, d, hs, hd⟩ := ports_total f ip.l4 (by omega)
    obtain ⟨b, hb⟩ := load8_of_lt f (ip.l4 + 13) (by omega)
    exact ⟨_, by simp [hs, hd, hb]; rfl⟩
  · exact ⟨_, rfl⟩
  · obtain ⟨s, d, hs, hd⟩ := ports_total f ip.l4 (by omega)
    exact ⟨_, by simp [hs, hd]; rfl⟩
  · exact ⟨_, rfl⟩
  · obtain ⟨t, ht⟩ := load8_of_lt f ip.l4 (by omega)
    obtain ⟨c, hc⟩ := load8_of_lt f (ip.l4 + 1) (by omega)
    exact ⟨_, by simp [ht, hc]; rfl⟩
  · exact ⟨_, rfl⟩
  · exact ⟨_, rfl⟩

/-- The type and code of an ICMP packet as the event carries them. -/
def icmpFieldsOf (f : Frame) (ip : Ipv4View) : UInt8 × UInt8 :=
  if ip.proto = IPPROTO_ICMP ∧ ip.l4 + 8 ≤ f.length then
    ((load8 f ip.l4).getD 0, (load8 f (ip.l4 + 1)).getD 0)
  else (0, 0)

/-- The two parses of the transport header agree: the event carries the ports and flags of the
flow accounting. -/
theorem eventOf_eq (f : Frame) (ip : Ipv4View) (ts : UInt64) (action : UInt8) :
    eventOf f ip ts action =
      ⟨ts, ip.src, ip.dst, (flowFieldsOf f ip).sport, (flowFieldsOf f ip).dport, ip.proto,
        (flowFieldsOf f ip).tcpFlags, ip.ttl, action, (icmpFieldsOf f ip).1,
        (icmpFieldsOf f ip).2⟩ := by
  simp only [eventOf, eventRecord, flowFieldsOf, flowFields, icmpFieldsOf]
  by_cases htcp : ip.proto = IPPROTO_TCP
  · by_cases hlen : ip.l4 + 20 ≤ f.length
    · obtain ⟨s, hs⟩ := load16_of_lt f ip.l4 (by omega)
      obtain ⟨d, hd⟩ := load16_of_lt f (ip.l4 + 2) (by omega)
      obtain ⟨b, hb⟩ := load8_of_lt f (ip.l4 + 13) (by omega)
      simp [htcp, hlen, hs, hd, hb, IPPROTO_TCP, IPPROTO_ICMP]
    · simp [htcp, hlen, IPPROTO_TCP, IPPROTO_ICMP]
  · by_cases hudp : ip.proto = IPPROTO_UDP
    · by_cases hlen : ip.l4 + 8 ≤ f.length
      · obtain ⟨s, hs⟩ := load16_of_lt f ip.l4 (by omega)
        obtain ⟨d, hd⟩ := load16_of_lt f (ip.l4 + 2) (by omega)
        simp [hudp, hlen, hs, hd, IPPROTO_TCP, IPPROTO_UDP, IPPROTO_ICMP]
      · simp [hudp, hlen, IPPROTO_TCP, IPPROTO_UDP, IPPROTO_ICMP]
    · by_cases hicmp : ip.proto = IPPROTO_ICMP
      · by_cases hlen : ip.l4 + 8 ≤ f.length
        · obtain ⟨t, ht⟩ := load8_of_lt f ip.l4 (by omega)
          obtain ⟨c, hc⟩ := load8_of_lt f (ip.l4 + 1) (by omega)
          simp [hicmp, hlen, ht, hc, IPPROTO_TCP, IPPROTO_UDP, IPPROTO_ICMP]
        · simp [hicmp, hlen, IPPROTO_TCP, IPPROTO_UDP, IPPROTO_ICMP]
      · simp [htcp, hudp, hicmp]

theorem emitEvent_eq (cfg : KwatchRuntimeConfig) (h : Helpers) (f : Frame) (ip : Ipv4View)
    (action : UInt8) (isNew : Bool) (m : Maps) :
    emitEvent cfg h f ip action isNew m =
      some (emitRecord cfg h (eventOf f ip h.eventTsNs action) isNew m) := by
  unfold emitEvent emitRecord
  split_ifs <;> simp [eventRecord_eq]

/-- The program never loads outside the frame, and its run is a run on the view. -/
theorem xdpKwatchProg_eq (cfg : KwatchRuntimeConfig) (h : Helpers) (f : Frame) (m : Maps) :
    xdpKwatchProg cfg h f m = some (runView cfg h f m (frameView f)) := by
  obtain ⟨r, hr⟩ := ethPayload_total f
  unfold xdpKwatchProg frameView
  rw [hr]
  rcases r with _ | ⟨ethType, l3⟩
  · rfl
  · obtain ⟨v, hv⟩ := ipHeader_total f l3
    simp only [Option.bind_eq_bind, Option.bind_some, hv]
    by_cases hip : ethType = ETH_P_IP
    · rcases v with _ | ip
      · simp [hip, runView]
      · by_cases hb : (m.blacklist.lookup (hostKey ip.src)).isSome = true
        · simp [hip, runView, isBlacklisted, emitEvent_eq, hb]
        · simp only [hip, runView, isBlacklisted, emitEvent_eq, flowFields_eq, Option.bind_some,
            keyOf, hb, ne_eq, not_true_eq_false, if_false, if_true]
          rfl
    · simp only [hip, ne_eq, not_false_eq_true, if_true, if_false]
      split_ifs <;> rfl

/-! ### The views are the grammar -/

theorem exists_cons₂ {s : Frame} (h : 2 ≤ s.length) : ∃ b₀ b₁ t, s = b₀ :: b₁ :: t := by
  rcases s with _ | ⟨b₀, _ | ⟨b₁, t⟩⟩
  · simp at h
  · simp at h
  · exact ⟨b₀, b₁, t, rfl⟩

theorem wire16_eq (x : UInt16) : ∃ b₀ b₁, wire16 x = [b₀, b₁] ∧ bpfNtohs (le16 b₀ b₁) = x :=
  ⟨_, _, rfl, bpfNtohs_le16_wire16 x⟩

theorem Tpid.exists_ethType_iff (ty : UInt16) :
    (∃ tpid : Tpid, tpid.ethType = ty) ↔ ty = ETH_P_8021Q ∨ ty = ETH_P_8021AD := by
  constructor
  · rintro ⟨tpid, rfl⟩; cases tpid <;> simp [Tpid.ethType]
  · rintro (rfl | rfl)
    · exact ⟨.dot1Q, rfl⟩
    · exact ⟨.dot1AD, rfl⟩

/-- An accepted link-layer header decodes to a frame of the grammar. -/
theorem ethPayload_sound {f : Frame} {ethType : UInt16} {l3 : ℕ}
    (h : ethPayload f = some (some (ethType, l3))) :
    ∃ E : EthFrame, E.encode = f ∧ E.ethType = ethType ∧ E.header.length = l3 := by
  unfold ethPayload at h
  split at h
  · cases h
  next hlen =>
  have hm : (f.take 12).length = 12 := by rw [List.length_take]; omega
  obtain ⟨b₀, b₁, s, hs⟩ := exists_cons₂ (s := f.drop 12) (by rw [List.length_drop]; omega)
  have hf : f.take 12 ++ b₀ :: b₁ :: s = f := by rw [← hs, List.take_append_drop]
  generalize f.take 12 = macs at hm hf
  subst hf
  simp only [load16_at hm, Option.bind_eq_bind, Option.bind_some] at h
  split at h
  next htag =>
    split at h
    · cases h
    next hlen' =>
    simp only [List.length_append, List.length_cons, hm] at hlen'
    obtain ⟨b₂, b₃, s₁, rfl⟩ := exists_cons₂ (s := s) (by omega)
    simp only [List.length_cons] at hlen'
    obtain ⟨b₄, b₅, s₂, rfl⟩ := exists_cons₂ (s := s₁) (by omega)
    have hsplit : macs ++ b₀ :: b₁ :: b₂ :: b₃ :: b₄ :: b₅ :: s₂ =
        (macs ++ [b₀, b₁, b₂, b₃]) ++ b₄ :: b₅ :: s₂ := by simp
    rw [hsplit, load16_at (by simp [hm])] at h
    simp only [Option.bind_some, Option.some.injEq, Prod.mk.injEq] at h
    obtain ⟨rfl, rfl⟩ := h
    obtain ⟨tpid, htpid⟩ := (Tpid.exists_ethType_iff _).mpr htag
    refine ⟨⟨macs, hm, some (tpid, bpfNtohs (le16 b₂ b₃)), bpfNtohs (le16 b₄ b₅), by simp, s₂⟩,
      ?_, rfl, ?_⟩
    · simp [EthFrame.encode, EthFrame.header, EthFrame.tagBytes, htpid, wire16_bpfNtohs_le16]
    · simp [EthFrame.header, EthFrame.tagBytes, hm]
  next htag =>
    simp only [Option.some.injEq, Prod.mk.injEq] at h
    obtain ⟨rfl, rfl⟩ := h
    refine ⟨⟨macs, hm, none, bpfNtohs (le16 b₀ b₁), fun _ => not_or.mp htag, s⟩, ?_, rfl, ?_⟩
    · simp [EthFrame.encode, EthFrame.header, EthFrame.tagBytes, wire16_bpfNtohs_le16]
    · simp [EthFrame.header, EthFrame.tagBytes, hm]

/-- Every frame of the grammar passes the link-layer checks. -/
theorem ethPayload_encode (E : EthFrame) :
    ethPayload E.encode = some (some (E.ethType, E.header.length)) := by
  obtain ⟨macs, hm, tag, ethType, untagged, payload⟩ := E
  obtain ⟨b₀, b₁, hw, hty⟩ := wire16_eq ethType
  rcases tag with _ | ⟨tpid, tci⟩
  · have hu := untagged rfl
    simp only [EthFrame.encode, EthFrame.header, EthFrame.tagBytes, hw, List.append_nil,
      List.append_assoc, List.cons_append, List.nil_append]
    unfold ethPayload
    simp only [load16_at hm, hty, hm, hu.1, hu.2, List.length_append, List.length_cons,
      Option.bind_eq_bind, Option.bind_some, or_self, if_false]
    rw [if_neg (by omega)]
    rfl
  · obtain ⟨c₀, c₁, hc, hcty⟩ := wire16_eq tpid.ethType
    obtain ⟨d₀, d₁, hd, -⟩ := wire16_eq tci
    have htag := (Tpid.exists_ethType_iff _).mp ⟨tpid, rfl⟩
    simp only [EthFrame.encode, EthFrame.header, EthFrame.tagBytes, hw, hc, hd,
      List.append_assoc, List.cons_append, List.nil_append]
    have hsplit : macs ++ c₀ :: c₁ :: d₀ :: d₁ :: b₀ :: b₁ :: payload =
        (macs ++ [c₀, c₁, d₀, d₁]) ++ b₀ :: b₁ :: payload := by simp
    have hin : load16 (macs ++ c₀ :: c₁ :: d₀ :: d₁ :: b₀ :: b₁ :: payload) 16 =
        some (le16 b₀ b₁) := by rw [hsplit]; exact load16_at (by simp [hm]) _ _ _
    unfold ethPayload
    simp only [load16_at hm, hin, hcty, htag, hty, hm, List.length_append, List.length_cons,
      Option.bind_eq_bind, Option.bind_some, if_true]
    rw [if_neg (by omega), if_neg (by omega)]
    rfl

theorem exists_cons₄ {s : Frame} (h : 4 ≤ s.length) :
    ∃ b₀ b₁ b₂ b₃ t, s = b₀ :: b₁ :: b₂ :: b₃ :: t := by
  obtain ⟨b₀, b₁, s, rfl⟩ := exists_cons₂ (s := s) (by omega)
  obtain ⟨b₂, b₃, s, rfl⟩ := exists_cons₂ (s := s) (by simp at h; omega)
  exact ⟨b₀, b₁, b₂, b₃, s, rfl⟩

/-- The view of an IPv4 header at a given offset. -/
def Ipv4Header.view (H : Ipv4Header) (l3 : ℕ) : Ipv4View :=
  ⟨l3 + H.ihl * 4, H.protocol, H.ttl, H.saddr, H.daddr⟩

/-- An accepted IPv4 header decodes to a header of the grammar. -/
theorem ipHeader_sound {p s : Frame} {ip : Ipv4View}
    (h : ipHeader (p ++ s) p.length = some (some ip)) :
    ∃ (H : Ipv4Header) (rest : Frame), s = H.encode ++ rest ∧ ip = H.view p.length := by
  unfold ipHeader at h
  split at h
  · cases h
  next hlen =>
  simp only [List.length_append] at hlen
  obtain ⟨b₀, b₁, b₂, b₃, s, rfl⟩ := exists_cons₄ (s := s) (by omega)
  simp only [List.length_cons] at hlen
  obtain ⟨b₄, b₅, b₆, b₇, s, rfl⟩ := exists_cons₄ (s := s) (by omega)
  simp only [List.length_cons] at hlen
  obtain ⟨b₈, b₉, b₁₀, b₁₁, s, rfl⟩ := exists_cons₄ (s := s) (by omega)
  simp only [List.length_cons] at hlen
  obtain ⟨b₁₂, b₁₃, b₁₄, b₁₅, s, rfl⟩ := exists_cons₄ (s := s) (by omega)
  simp only [List.length_cons] at hlen
  obtain ⟨b₁₆, b₁₇, b₁₈, b₁₉, t, rfl⟩ := exists_cons₄ (s := s) (by omega)
  have h0 := load8_append_right p (b₀ :: b₁ :: b₂ :: b₃ :: b₄ :: b₅ :: b₆ :: b₇ :: b₈ :: b₉ ::
    b₁₀ :: b₁₁ :: b₁₂ :: b₁₃ :: b₁₄ :: b₁₅ :: b₁₆ :: b₁₇ :: b₁₈ :: b₁₉ :: t) 0
  rw [Nat.add_zero] at h0
  simp only [h0, load8_append_right, load32_append_right] at h
  simp only [load32, load8, List.getElem?_cons_zero, List.getElem?_cons_succ,
    Option.bind_eq_bind, Option.bind_some, List.length_append, List.length_cons] at h
  split at h
  · cases h
  next hver =>
  split at h
  · cases h
  next hihl =>
  split at h
  · cases h
  next hl4 =>
  simp only [Option.some.injEq] at h
  have hb₀ := b₀.toNat_lt
  have hb : b₀ = UInt8.ofNat (64 + b₀.toNat % 16) := by
    apply UInt8.toNat_inj.mp
    rw [UInt8.toNat_ofNat']
    omega
  refine ⟨⟨b₀.toNat % 16, by omega, by omega, b₁, bpfNtohs (le16 b₂ b₃), bpfNtohs (le16 b₄ b₅),
    bpfNtohs (le16 b₆ b₇), b₈, b₉, bpfNtohs (le16 b₁₀ b₁₁), le32 b₁₂ b₁₃ b₁₄ b₁₅,
    le32 b₁₆ b₁₇ b₁₈ b₁₉, t.take (4 * (b₀.toNat % 16 - 5)), ?_⟩,
    t.drop (4 * (b₀.toNat % 16 - 5)), ?_, ?_⟩
  · rw [List.length_take]; omega
  · simp only [Ipv4Header.encode, wire16_bpfNtohs_le16, addrBytes_le32, ← hb, List.cons_append,
      List.nil_append, List.take_append_drop]
  · rw [← h]; rfl

/-- Every IPv4 header of the grammar passes the checks. -/
theorem ipHeader_encode (p : Frame) (H : Ipv4Header) (rest : Frame) :
    ipHeader (p ++ (H.encode ++ rest)) p.length = some (some (H.view p.length)) := by
  have hge := H.ihl_ge
  have hle := H.ihl_le
  have hlen : (p ++ (H.encode ++ rest)).length = p.length + 4 * H.ihl + rest.length := by
    simp; omega
  have h0 := load8_append_right p (H.encode ++ rest) 0
  rw [Nat.add_zero] at h0
  have hb : (UInt8.ofNat (64 + H.ihl)).toNat = 64 + H.ihl := by
    rw [UInt8.toNat_ofNat']; omega
  have hver : (64 + H.ihl) / 16 = 4 := by omega
  have hihl : (64 + H.ihl) % 16 = H.ihl := by omega
  unfold ipHeader
  rw [if_neg (by omega), h0, load8_append_right, load8_append_right, load32_append_right,
    load32_append_right]
  simp only [load32, load8, Ipv4Header.encode, wire16, addrBytes, List.cons_append,
    List.nil_append, List.getElem?_cons_zero, List.getElem?_cons_succ, Option.bind_eq_bind,
    Option.bind_some, le32_addrBytes, hb, hver, hihl, ne_eq, not_true_eq_false, if_false]
  rw [if_neg (by omega), if_neg]
  · rfl
  · have := hlen
    simp only [Ipv4Header.encode, wire16, addrBytes, List.cons_append, List.nil_append] at this
    omega

theorem Ipv4Frame.encode_eq (F : Ipv4Frame) :
    F.encode = F.toEth.header ++ (F.ip.encode ++ F.rest) := rfl

/-- The view of a complete IPv4 frame. -/
def Ipv4Frame.view (F : Ipv4Frame) : Ipv4View := F.ip.view F.toEth.header.length

theorem frameView_encode (F : Ipv4Frame) : frameView F.encode = .ipv4 F.view := by
  have he : ethPayload F.encode = some (some (ETH_P_IP, F.toEth.header.length)) :=
    ethPayload_encode F.toEth
  unfold frameView
  rw [he]
  simp only [if_true, Ipv4Frame.encode_eq, ipHeader_encode, Ipv4Frame.view]

/-- The program treats a frame as an IPv4 packet exactly when it is one of the grammar. -/
theorem frameView_eq_ipv4_iff {f : Frame} {ip : Ipv4View} :
    frameView f = .ipv4 ip ↔ ∃ F : Ipv4Frame, F.encode = f ∧ F.view = ip := by
  constructor
  · intro h
    unfold frameView at h
    split at h
    next ethType l3 he =>
      split_ifs at h with hip
      · split at h
        next ip' hh =>
          cases h
          obtain ⟨E, rfl, hty, rfl⟩ := ethPayload_sound he
          obtain ⟨H, rest, hs, rfl⟩ := ipHeader_sound (p := E.header) (s := E.payload) hh
          obtain ⟨macs, hm, tag, ty, unt, payload⟩ := E
          obtain rfl : ty = ETH_P_IP := hty.trans hip
          obtain rfl : payload = H.encode ++ rest := hs
          exact ⟨⟨macs, hm, tag, H, rest⟩, rfl, rfl⟩
        · cases h
    · cases h
  · rintro ⟨F, rfl, rfl⟩
    exact frameView_encode F

/-- The sentinel counters belong to the IPv6 and ARP EtherTypes behind at most one tag. -/
theorem frameView_eq_sentinel_iff {f : Frame} {k : UInt32} :
    frameView f = .sentinel k ↔ ∃ E : EthFrame, E.encode = f ∧
      (E.ethType = ETH_P_IPV6 ∧ k = 0x86DD ∨ E.ethType = ETH_P_ARP ∧ k = 0x0806) := by
  constructor
  · intro h
    unfold frameView at h
    split at h
    next ethType l3 he =>
      obtain ⟨E, rfl, rfl, rfl⟩ := ethPayload_sound he
      split_ifs at h with hip hv6 harp
      · split at h <;> cases h
      · cases h; exact ⟨E, rfl, Or.inl ⟨hv6, rfl⟩⟩
      · cases h; exact ⟨E, rfl, Or.inr ⟨harp, rfl⟩⟩
    · cases h
  · rintro ⟨E, rfl, ⟨hty, rfl⟩ | ⟨hty, rfl⟩⟩
    · unfold frameView
      rw [ethPayload_encode, hty]
      rfl
    · unfold frameView
      rw [ethPayload_encode, hty]
      rfl

/-- A frame with the given IPv4 protocol and no options. -/
def bareIpv4 (proto : UInt8) : Frame :=
  [0, 0, 0, 0, 0, 0, 0, 0, 0, 0, 0, 0, 0x08, 0x00,
    0x45, 0, 0, 20, 0, 0, 0, 0, 64, proto, 0, 0, 10, 0, 0, 1, 10, 0, 0, 2]

theorem frameView_bareIpv4 (p : UInt8) :
    frameView (bareIpv4 p) = .ipv4 ⟨34, p, 64, 0x0100000A, 0x0200000A⟩ := rfl

end KWatch
