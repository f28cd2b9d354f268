import KWatch.Xdp.Effects

/-! # Flow counters and the packet history

The kernel counts SYN and ACK packets per flow in windows that restart lazily. Whatever is
evicted, a stored SYN count is at most the number of SYN packets accepted since the start of its
window; without evictions both counts are exact modulo their 32 bits.
-/

namespace KWatch

/-- A packet the program accepted, as its flow accounting sees it. -/
structure AcceptedPacket where
  timeNs : UInt64
  key : KwatchFlowKey
  tcpFlags : UInt8
  deriving DecidableEq, Repr

namespace AcceptedPacket

def isSyn (p : AcceptedPacket) : Bool := p.tcpFlags &&& 0x02 != 0
def isAck (p : AcceptedPacket) : Bool := p.tcpFlags &&& 0x10 != 0

/-- Packets of a flow from a time on. -/
def since (key : KwatchFlowKey) (t : UInt64) (p : AcceptedPacket) : Bool :=
  p.key == key && t ≤ p.timeNs

end AcceptedPacket

open AcceptedPacket

/-- The packet a frame is accepted as. -/
def Arrival.accepted (a : Arrival) : Option AcceptedPacket :=
  (acceptedPacket a.blacklist (frameView a.frame)).map fun ip =>
    ⟨a.helpers.nowNs, keyOf a.frame ip, (flowFieldsOf a.frame ip).tcpFlags⟩

theorem Arrival.timeNs_of_accepted {a : Arrival} {p : AcceptedPacket} (h : a.accepted = some p) :
    p.timeNs = a.helpers.nowNs := by
  obtain ⟨ip, -, rfl⟩ := Option.map_eq_some_iff.mp h
  rfl

/-! ### Accepted packets in the frame grammar -/

/-- The TCP flags of a complete IPv4 frame, 0 unless it is TCP with a whole basic header. -/
def Ipv4Frame.tcpFlags (F : Ipv4Frame) : UInt8 :=
  if F.ip.protocol = IPPROTO_TCP ∧ 20 ≤ F.rest.length then F.rest.getD 13 0 else 0

theorem Ipv4Frame.view_l4 (F : Ipv4Frame) :
    F.view.l4 = (F.toEth.header ++ F.ip.encode).length := by
  rw [List.length_append, Ipv4Header.length_encode, mul_comm]
  rfl

theorem flowFieldsOf_tcpFlags (F : Ipv4Frame) :
    (flowFieldsOf F.encode F.view).tcpFlags = F.tcpFlags := by
  have hf := flowFields_eq F.encode F.view
  have hlen : F.encode.length = F.view.l4 + F.rest.length := by
    rw [F.view_l4, F.encode_eq, ← List.append_assoc, List.length_append]
  have hbyte : load8 F.encode (F.view.l4 + 13) = F.rest[13]? := by
    rw [F.view_l4, F.encode_eq, ← List.append_assoc, load8_append_right]
    rfl
  have hp : F.view.proto = F.ip.protocol := rfl
  simp only [flowFields, hp, hlen, hbyte, Nat.add_le_add_iff_left, Option.bind_eq_bind] at hf
  unfold Ipv4Frame.tcpFlags
  split_ifs at hf with htcp hl hudp hl
  · rw [if_pos ⟨htcp, hl⟩]
    simp only [Option.bind_eq_some_iff, Option.some.injEq] at hf
    obtain ⟨_, _, _, _, b, hb, he⟩ := hf
    rw [← he]
    simp [hb]
  · rw [if_neg (by simp [hl]), ← Option.some.inj hf]
  · rw [if_neg (by simp [htcp])]
    simp only [Option.bind_eq_some_iff, Option.some.injEq] at hf
    obtain ⟨_, _, _, _, he⟩ := hf
    rw [← he]
  · rw [if_neg (by simp [htcp]), ← Option.some.inj hf]
  · rw [if_neg (by simp [htcp]), ← Option.some.inj hf]

/-- The accepted packets are the complete IPv4 frames from a source off the blacklist. -/
theorem accepted_eq_some_iff {a : Arrival} {p : AcceptedPacket} :
    a.accepted = some p ↔ ∃ F : Ipv4Frame, F.encode = a.frame ∧
      (¬ ∃ n ∈ a.blacklist.networks, InNetwork F.ip.saddr n) ∧
      p = ⟨a.helpers.nowNs, keyOf a.frame F.view, F.tcpFlags⟩ := by
  simp only [Arrival.accepted, Option.map_eq_some_iff]
  constructor
  · rintro ⟨ip, hip, rfl⟩
    cases hv : frameView a.frame with
    | ignored => simp [hv, acceptedPacket] at hip
    | sentinel k => simp [hv, acceptedPacket] at hip
    | ipv4 ip' =>
      obtain ⟨F, hF, rfl⟩ := frameView_eq_ipv4_iff.mp hv
      rw [hv, acceptedPacket] at hip
      obtain ⟨hb, hip⟩ := Option.ite_none_left_eq_some.mp hip
      cases hip
      refine ⟨F, hF, mt (LpmTrie.lookup_host_isSome_iff _ _).mpr hb, ?_⟩
      rw [← hF, flowFieldsOf_tcpFlags]
  · rintro ⟨F, hF, hb, rfl⟩
    refine ⟨F.view, ?_, by rw [← hF, flowFieldsOf_tcpFlags]⟩
    rw [← hF, frameView_encode]
    exact if_neg (mt (LpmTrie.lookup_host_isSome_iff _ _).mp hb)

/-! ### Counting packets -/

/-- The number of packets of a flow with a flag, from a time on. -/
def countSince (flag : AcceptedPacket → Bool) (ps : List AcceptedPacket) (key : KwatchFlowKey)
    (t : UInt64) : ℕ := ps.countP fun p => flag p && p.since key t

theorem countSince_append (flag : AcceptedPacket → Bool) (ps : List AcceptedPacket)
    (p : AcceptedPacket) (key : KwatchFlowKey) (t : UInt64) :
    countSince flag (ps ++ [p]) key t =
      countSince flag ps key t + if flag p && p.since key t then 1 else 0 := by
  simp [countSince, List.countP_append, List.countP_singleton]

/-- The entries after an accepted packet: its own, new or updated, and older ones of other flows. -/
theorem accountFlow_get?_cases {cfg : KwatchRuntimeConfig} {h : Helpers} {key k : KwatchFlowKey}
    {flags : UInt8} {flows : Table KwatchFlowKey KwatchFlowStats} {s : KwatchFlowStats}
    (hs : (accountFlow cfg h key flags flows).1.get? k = some s) :
    k = key ∧ flows.get? key = none ∧ s = newFlowStats h.nowNs flags ∨
      k = key ∧ (∃ s₀, flows.get? key = some s₀ ∧ s = updateFlowStats cfg h.nowNs flags s₀) ∨
      k ≠ key ∧ flows.get? k = some s := by
  have hvictims : ∀ (vs : List KwatchFlowKey) (t : Table KwatchFlowKey KwatchFlowStats),
      (vs.foldl Table.erase t).get? k = some s → t.get? k = some s := by
    intro vs
    induction vs with
    | nil => exact fun t ht => ht
    | cons v vs ih =>
      intro t ht
      have := ih _ ht
      rw [Table.get?_erase] at this
      split at this
      · cases this
      · exact this
  unfold accountFlow at hs
  cases hk : flows.get? key with
  | none =>
    simp only [hk, Table.get?_set] at hs
    split at hs
    · next he => cases hs; exact Or.inl ⟨he, rfl, rfl⟩
    · next he => exact Or.inr (Or.inr ⟨he, hvictims _ _ hs⟩)
  | some s₀ =>
    simp only [hk, Table.get?_set] at hs
    split at hs
    · next he => cases hs; exact Or.inr (Or.inl ⟨he, s₀, rfl, rfl⟩)
    · next he => exact Or.inr (Or.inr ⟨he, hs⟩)

/-! ### An upper bound that evictions keep -/

/-- What a flow table owes to the accepted packets, whatever was evicted from it. -/
structure FlowsBounded (ps : List AcceptedPacket) (flows : Table KwatchFlowKey KwatchFlowStats) :
    Prop where
  seen : ∀ k s, flows.get? k = some s → ∃ q ∈ ps, s.firstSeenNs = q.timeNs
  syns : ∀ k s, flows.get? k = some s → s.synCount.toNat ≤ countSince isSyn ps k s.firstSeenNs

theorem FlowsBounded.erase {ps : List AcceptedPacket} {flows : Table KwatchFlowKey KwatchFlowStats}
    (h : FlowsBounded ps flows) (key : KwatchFlowKey) : FlowsBounded ps (flows.erase key) := by
  have hle : ∀ k s, (flows.erase key).get? k = some s → flows.get? k = some s := by
    intro k s hs
    rw [Table.get?_erase] at hs
    split at hs
    · cases hs
    · exact hs
  exact ⟨fun k s hs => h.seen k s (hle k s hs), fun k s hs => h.syns k s (hle k s hs)⟩

/-- The window start of an updated entry is the packet's time or the old start. -/
theorem restartWindow_cases (cfg : KwatchRuntimeConfig) (now : UInt64) (s : KwatchFlowStats) :
    restartWindow cfg now s = { s with firstSeenNs := now, synCount := 0, ackCount := 0 } ∧
        0 < cfg.synWindowNs ∧ s.firstSeenNs < now ∧ cfg.synWindowNs < now - s.firstSeenNs ∨
      restartWindow cfg now s = s ∧
        ¬ (0 < cfg.synWindowNs ∧ s.firstSeenNs < now ∧ cfg.synWindowNs < now - s.firstSeenNs) := by
  unfold restartWindow
  split
  · next h => exact Or.inl ⟨rfl, h⟩
  · next h => exact Or.inr ⟨rfl, h⟩

theorem toNat_succ_le (c : UInt32) : (c + 1).toNat ≤ c.toNat + 1 := by
  rw [UInt32.toNat_add]
  exact Nat.mod_le _ _

theorem FlowsBounded.account {ps : List AcceptedPacket}
    {flows : Table KwatchFlowKey KwatchFlowStats} (hb : FlowsBounded ps flows)
    (cfg : KwatchRuntimeConfig) (h : Helpers) {p : AcceptedPacket} (hp : p.timeNs = h.nowNs)
    (hclock : ∀ q ∈ ps, q.timeNs ≤ p.timeNs) :
    FlowsBounded (ps ++ [p]) (accountFlow cfg h p.key p.tcpFlags flows).1 := by
  have hself : p.since p.key p.timeNs = true := by simp [AcceptedPacket.since]
  constructor
  · intro k s hs
    rcases accountFlow_get?_cases hs with ⟨rfl, -, rfl⟩ | ⟨rfl, s₀, hs₀, rfl⟩ | ⟨hk, hs⟩
    · exact ⟨p, by simp, hp.symm⟩
    · rcases restartWindow_cases cfg h.nowNs s₀ with ⟨hr, -⟩ | ⟨hr, -⟩
      · exact ⟨p, by simp, by simp [updateFlowStats, hr, hp]⟩
      · obtain ⟨q, hq, he⟩ := hb.seen _ s₀ hs₀
        exact ⟨q, List.mem_append_left _ hq, by simp [updateFlowStats, hr, he]⟩
    · obtain ⟨q, hq, he⟩ := hb.seen k s hs
      exact ⟨q, List.mem_append_left _ hq, he⟩
  · intro k s hs
    rcases accountFlow_get?_cases hs with ⟨rfl, -, rfl⟩ | ⟨rfl, s₀, hs₀, rfl⟩ | ⟨hk, hs⟩
    · simp only [newFlowStats, countSince_append, ← hp, hself, Bool.and_true,
        AcceptedPacket.isSyn, bne_iff_ne]
      split_ifs <;> simp
    · have hbase : (restartWindow cfg h.nowNs s₀).synCount.toNat ≤
          countSince isSyn ps p.key (restartWindow cfg h.nowNs s₀).firstSeenNs := by
        rcases restartWindow_cases cfg h.nowNs s₀ with ⟨hr, -⟩ | ⟨hr, -⟩
        · simp [hr]
        · rw [hr]; exact hb.syns _ s₀ hs₀
      have hsince : p.since p.key (restartWindow cfg h.nowNs s₀).firstSeenNs = true := by
        rcases restartWindow_cases cfg h.nowNs s₀ with ⟨hr, -⟩ | ⟨hr, -⟩
        · simp [AcceptedPacket.since, hr, hp]
        · obtain ⟨q, hq, he⟩ := hb.seen _ s₀ hs₀
          simp [AcceptedPacket.since, hr, he, hclock q hq]
      simp only [updateFlowStats, countSince_append, hsince, Bool.and_true, isSyn, bne_iff_ne]
      split
      · exact (toNat_succ_le _).trans (Nat.add_le_add_right hbase 1)
      · exact hbase
    · rw [countSince_append]
      exact (hb.syns k s hs).trans (Nat.le_add_right _ _)

end KWatch
