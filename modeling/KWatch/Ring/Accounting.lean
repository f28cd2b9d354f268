import KWatch.Library.Run
import KWatch.Ring.Consume
import KWatch.Xdp.Effects

/-! # Events from the program to the callback

Packets and drains in any order. Every positive emit decision becomes a delivered event, a
record still in the ring, a reservation that failed, or a record beyond a drain's budget. The
two counters of losses are 64 bits wide, so the account balances modulo that.
-/

namespace KWatch

/-- The kernel maps and the reader, with the number of positive emit decisions so far. -/
structure Pipeline where
  maps : Maps
  ring : RingBuf
  decided : ℕ

inductive PipelineStep where
  | packet (a : Arrival)
  | consume (budget : UInt64) (hpos : 0 < budget)

/-- The event that the program decides to emit for a frame. -/
def Arrival.decision (cfg : KwatchRuntimeConfig) (m : Maps) (a : Arrival) : Option KwatchEvent :=
  emitDecision cfg a.helpers a.frame { m with blacklist := a.blacklist } (frameView a.frame)

namespace Pipeline

def start : Pipeline := ⟨.empty, .new, 0⟩

def step (cfg : KwatchRuntimeConfig) (consumer : RingBuf.Consumer) (s : Pipeline) :
    PipelineStep → Option Pipeline
  | .packet a => (xdpKwatchProg cfg a.helpers a.frame { s.maps with blacklist := a.blacklist }).map
      fun r => { s with
        maps := r.2
        decided := if (a.decision cfg s.maps).isSome then s.decided + 1 else s.decided }
  | .consume budget _ =>
    let x := RingBuf.consume consumer budget s.maps.events s.ring
    some { s with ring := x.1, maps := { s.maps with events := x.2 } }

/-- The account with the true numbers of losses behind the two counters. -/
structure Balanced (s : Pipeline) (beyond unreserved : ℕ) : Prop where
  dropped : s.ring.droppedCount = UInt64.ofNat beyond
  drops : s.maps.ringbufDrops = UInt64.ofNat unreserved
  total : s.decided =
    s.ring.delivered.length + beyond + unreserved + s.maps.events.length

variable {cfg : KwatchRuntimeConfig} {consumer : RingBuf.Consumer} {s s' : Pipeline}

variable (cfg consumer) in
/-- What a packet changes: a positive decision fills the ring or counts a failed reservation. -/
theorem step_packet (s : Pipeline) (a : Arrival) : ∃ s', s.step cfg consumer (.packet a) = some s' ∧
    s'.ring = s.ring ∧ (s'.decided, s'.maps.events, s'.maps.ringbufDrops) =
      match a.decision cfg s.maps with
      | none => (s.decided, s.maps.events, s.maps.ringbufDrops)
      | some e => if a.helpers.ringFull then (s.decided + 1, s.maps.events, s.maps.ringbufDrops + 1)
        else (s.decided + 1, s.maps.events ++ [e], s.maps.ringbufDrops) := by
  simp only [step, xdpKwatchProg_eq, Option.map_some, Option.some.injEq, exists_eq_left']
  have hring := runView_ring cfg a.helpers a.frame { s.maps with blacklist := a.blacklist }
    (frameView a.frame)
  rw [← Arrival.decision] at hring
  refine ⟨trivial, ?_⟩
  cases hd : a.decision cfg s.maps with
  | none =>
    rw [hd] at hring
    exact congrArg (Prod.mk s.decided) hring
  | some e =>
    rw [hd] at hring
    simp only [Option.isSome_some, if_true]
    apply (congrArg (Prod.mk (s.decided + 1)) hring).trans
    cases a.helpers.ringFull <;> rfl

/-- What a packet does to the account. -/
theorem Balanced.packet {beyond unreserved : ℕ} (h : s.Balanced beyond unreserved) {a : Arrival}
    (hst : s.step cfg consumer (.packet a) = some s') : ∃ u, s'.Balanced beyond u := by
  obtain ⟨s₁, h₁, hring, hacc⟩ := step_packet cfg consumer s a
  obtain rfl : s₁ = s' := Option.some.inj (h₁.symm.trans hst)
  have hb : s₁.ring.droppedCount = UInt64.ofNat beyond := by rw [hring, h.dropped]
  have ht := h.total
  split at hacc
  · simp only [Prod.mk.injEq] at hacc
    obtain ⟨hdec, hev, hk⟩ := hacc
    exact ⟨unreserved, hb, hk.trans h.drops, by rw [hdec, hev, hring, ht]⟩
  · split at hacc
    · simp only [Prod.mk.injEq] at hacc
      obtain ⟨hdec, hev, hk⟩ := hacc
      refine ⟨unreserved + 1, hb, by rw [hk, h.drops, UInt64.ofNat_add]; rfl, ?_⟩
      rw [hdec, hev, hring, ht]
      omega
    · simp only [Prod.mk.injEq] at hacc
      obtain ⟨hdec, hev, hk⟩ := hacc
      refine ⟨unreserved, hb, hk.trans h.drops, ?_⟩
      rw [hdec, hev, hring, ht, List.length_append, List.length_singleton]
      omega

/-- What a drain does to the account. -/
theorem Balanced.consume (hlib : consumer.DeliversInOrder) {beyond unreserved : ℕ}
    (h : s.Balanced beyond unreserved) {budget : UInt64} {hpos : 0 < budget}
    (hst : s.step cfg consumer (.consume budget hpos) = some s') :
    ∃ b, s'.Balanced b unreserved := by
  cases hst
  obtain ⟨hd, hk, -, he⟩ := RingBuf.consume_spec hlib hpos s.maps.events s.ring
  refine ⟨beyond + (s.maps.events.length - budget.toNat), ?_, h.drops, ?_⟩
  · rw [hk, h.dropped, UInt64.ofNat_add]
  · simp only [hd, he, h.total, List.length_append, List.length_take, List.length_nil]
    omega

theorem exists_balanced (hlib : consumer.DeliversInOrder) {steps : List PipelineStep}
    (hrun : Run.exec (step cfg consumer) start steps = some s) : ∃ b u, s.Balanced b u := by
  have hmeets : Run.Meets (step cfg consumer) (fun _ _ => True) start steps :=
    Run.meets_true _ _
  refine Run.invariant (P := fun s => ∃ b u, s.Balanced b u) ?_ ⟨0, 0, rfl, rfl, rfl⟩ hmeets hrun
  · rintro s st s' ⟨b, u, h⟩ - hst
    cases st with
    | packet a => exact ⟨b, h.packet hst⟩
    | consume budget hpos =>
      obtain ⟨b', h'⟩ := h.consume hlib hst
      exact ⟨b', u, h'⟩

/-- A dropped packet and a packet of an unknown flow are always emitted. -/
theorem decision_isSome (cfg : KwatchRuntimeConfig) (m : Maps) (a : Arrival) :
    (∀ r, xdpKwatchProg cfg a.helpers a.frame { m with blacklist := a.blacklist } = some r →
      r.1 = .XDP_DROP → (a.decision cfg m).isSome) ∧
    ∀ ip, acceptedPacket a.blacklist (frameView a.frame) = some ip →
      m.flowState.get? (keyOf a.frame ip) = none → (a.decision cfg m).isSome := by
  have hnew : kwatchShouldEmitEvent cfg.sampleN a.helpers.prandom true = true := rfl
  constructor
  · intro r hr hdrop
    rw [xdpKwatchProg_eq, Option.some.injEq] at hr
    subst hr
    obtain ⟨ip, hv, hb⟩ := (runView_drop_iff ..).mp hdrop
    simp only at hb
    simp [Arrival.decision, emitDecision, hv, hb, hnew]
  · intro ip hip hnone
    cases hv : frameView a.frame with
    | ignored => simp [hv, acceptedPacket] at hip
    | sentinel k => simp [hv, acceptedPacket] at hip
    | ipv4 ip' =>
      rw [hv, acceptedPacket] at hip
      obtain ⟨hb, hip⟩ := Option.ite_none_left_eq_some.mp hip
      cases hip
      simp [Arrival.decision, emitDecision, hv, hb, hnone, hnew]

/-- The account of any run, and what the next drain and the next packet do. -/
structure Accounted (cfg : KwatchRuntimeConfig) (consumer : RingBuf.Consumer) (s : Pipeline) :
    Prop where
  balance : s.decided ≡ s.ring.delivered.length + s.ring.droppedCount.toNat +
    s.maps.ringbufDrops.toNat + s.maps.events.length [MOD 2 ^ 64]
  exact_balance : s.decided < 2 ^ 64 → s.decided = s.ring.delivered.length +
    s.ring.droppedCount.toNat + s.maps.ringbufDrops.toNat + s.maps.events.length
  drain : ∀ budget hpos s', s.step cfg consumer (.consume budget hpos) = some s' →
    s'.ring.delivered = s.ring.delivered ++ s.maps.events.take budget.toNat ∧
      s'.ring.droppedCount =
        s.ring.droppedCount + UInt64.ofNat (s.maps.events.length - budget.toNat) ∧
      s'.maps = { s.maps with events := [] }
  dropped : ∀ (a : Arrival) r,
    xdpKwatchProg cfg a.helpers a.frame { s.maps with blacklist := a.blacklist } = some r →
      r.1 = .XDP_DROP → (a.decision cfg s.maps).isSome
  fresh : ∀ (a : Arrival) ip, acceptedPacket a.blacklist (frameView a.frame) = some ip →
    s.maps.flowState.get? (keyOf a.frame ip) = none → (a.decision cfg s.maps).isSome

theorem event_accounting (cfg : KwatchRuntimeConfig) {consumer : RingBuf.Consumer}
    (hlib : consumer.DeliversInOrder) {steps : List PipelineStep} {s : Pipeline}
    (hrun : Run.exec (step cfg consumer) start steps = some s) : s.Accounted cfg consumer := by
  obtain ⟨b, u, hb, hu, ht⟩ := exists_balanced hlib hrun
  have hbn : s.ring.droppedCount.toNat = b % 2 ^ 64 := by rw [hb, UInt64.toNat_ofNat']
  have hun : s.maps.ringbufDrops.toNat = u % 2 ^ 64 := by rw [hu, UInt64.toNat_ofNat']
  refine ⟨?_, ?_, ?_, fun a => (decision_isSome cfg s.maps a).1,
    fun a => (decision_isSome cfg s.maps a).2⟩
  · rw [ht, hbn, hun]
    exact (((Nat.ModEq.refl _).add (Nat.mod_modEq b _).symm).add (Nat.mod_modEq u _).symm).add_right _
  · intro hlt
    rw [hbn, hun, Nat.mod_eq_of_lt (by omega), Nat.mod_eq_of_lt (by omega), ht]
  · rintro budget hpos s' ⟨⟩
    obtain ⟨hd, hk, -, he⟩ := RingBuf.consume_spec hlib hpos s.maps.events s.ring
    exact ⟨hd, hk, by rw [he]⟩

/-- An IPv4 packet that finds the ring full. -/
def refused : Arrival := ⟨bareIpv4 1, ⟨1, 1, 0, true, []⟩, .empty⟩

variable (consumer) in
/-- Without sampling every such packet is a decision and a failed reservation. -/
theorem step_refused (s : Pipeline) : ∃ s', s.step ⟨1, 0⟩ consumer (.packet refused) = some s' ∧
    s'.ring = s.ring ∧ (s'.decided, s'.maps.events, s'.maps.ringbufDrops) =
      (s.decided + 1, s.maps.events, s.maps.ringbufDrops + 1) := by
  have hb : (LpmTrie.empty.lookup (hostKey 0x0100000A)).isSome = false := by decide
  have hd : ∃ e, refused.decision ⟨1, 0⟩ s.maps = some e := by
    simp [Arrival.decision, refused, frameView_bareIpv4, emitDecision, isBlacklisted, hb,
      kwatchShouldEmitEvent]
  obtain ⟨e, he⟩ := hd
  have h := step_packet ⟨1, 0⟩ consumer s refused
  rw [he] at h
  exact h

theorem run_refused (consumer : RingBuf.Consumer) (n : ℕ) : ∃ s,
    Run.exec (step ⟨1, 0⟩ consumer) start (List.replicate n (.packet refused)) = some s ∧
      s.decided = n ∧ s.ring = .new ∧ s.maps.events = [] ∧
      s.maps.ringbufDrops = UInt64.ofNat n := by
  induction n with
  | zero => exact ⟨start, rfl, rfl, rfl, rfl, rfl⟩
  | succ n ih =>
    obtain ⟨s, hs, hdec, hring, hev, hk⟩ := ih
    obtain ⟨s', hs', hring', hacc⟩ := step_refused consumer s
    simp only [Prod.mk.injEq] at hacc
    obtain ⟨hdec', hev', hk'⟩ := hacc
    refine ⟨s', ?_, by rw [hdec', hdec], hring'.trans hring, hev'.trans hev, ?_⟩
    · rw [List.replicate_succ', Run.exec_append, hs]
      exact hs'
    · rw [hk', hk, UInt64.ofNat_add]
      rfl

/-- An IPv4 packet whose event is stored in the ring. -/
def stored (now : UInt64) : Arrival := ⟨bareIpv4 1, ⟨now, now, 0, false, []⟩, .empty⟩

/-- Three packets, one more at a full ring, and a drain of two of the three events. -/
theorem event_accounting_drained : ∃ s,
    Run.exec (step ⟨1, 0⟩ RingBuf.consumeAll) start [.packet (stored 1), .packet (stored 2),
      .packet (stored 3), .packet refused, .consume 2 (by decide)] = some s ∧
    (s.decided, s.ring.delivered.map KwatchEvent.tsNs) = (4, [1, 2]) ∧
    (s.ring.droppedCount, s.maps.ringbufDrops) = (1, 1) ∧
    s.Accounted ⟨1, 0⟩ RingBuf.consumeAll := by
  obtain ⟨s, hs⟩ : ∃ s, Run.exec (step ⟨1, 0⟩ RingBuf.consumeAll) start [.packet (stored 1),
      .packet (stored 2), .packet (stored 3), .packet refused, .consume 2 (by decide)] = some s :=
    ⟨_, rfl⟩
  refine ⟨s, hs, ?_, ?_, event_accounting ⟨1, 0⟩ RingBuf.consumeAll_deliversInOrder hs⟩
  · cases hs
    rfl
  · cases hs
    rfl

/-- After `2 ^ 64` failed reservations the counters show no loss. -/
theorem event_loss_wraps : ∃ s, Run.exec (step ⟨1, 0⟩ RingBuf.consumeAll) start
      (List.replicate (2 ^ 64) (.packet refused)) = some s ∧
    s.decided ≠ s.ring.delivered.length + s.ring.droppedCount.toNat +
      s.maps.ringbufDrops.toNat + s.maps.events.length := by
  obtain ⟨s, hs, hdec, hring, hev, hk⟩ := run_refused RingBuf.consumeAll (2 ^ 64)
  refine ⟨s, hs, ?_⟩
  rw [hdec, hring, hev, hk, UInt64.toNat_ofNat', Nat.mod_self]
  simp [RingBuf.new]

end Pipeline

end KWatch
