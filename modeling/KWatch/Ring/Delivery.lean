import KWatch.Ring.Accounting

/-! # Which packets the callback hears of

The events that reach the callback, and those that wait in the ring, tell of packets in the order of
their arrival, each of at most one. A packet that is dropped is always among those that an event was
decided for.
-/

namespace KWatch

def PipelineStep.arrival? : PipelineStep → Option Arrival
  | .packet a => some a
  | .consume _ _ => none

namespace Arrival

/-- The event has the fields of the packet, the time of its handling and the verdict. -/
def Reports (a : Arrival) (e : KwatchEvent) : Prop :=
  ∃ ip, frameView a.frame = .ipv4 ip ∧
    e = eventOf a.frame ip a.helpers.eventTsNs (if isBlacklisted a.blacklist ip then 1 else 0)

/-- An IPv4 packet from a source on the blacklist. -/
def dropped (a : Arrival) : Bool :=
  match frameView a.frame with
  | .ipv4 ip => isBlacklisted a.blacklist ip
  | _ => false

variable {cfg : KwatchRuntimeConfig} {m : Maps} {a : Arrival} {e : KwatchEvent}

theorem dropped_iff : a.dropped = true ↔ ∀ r,
    xdpKwatchProg cfg a.helpers a.frame { m with blacklist := a.blacklist } = some r →
      r.1 = .XDP_DROP := by
  simp only [xdpKwatchProg_eq, Option.some.injEq, forall_eq', runView_drop_iff, dropped]
  cases frameView a.frame <;> simp

theorem reports_of_decision (h : a.decision cfg m = some e) : a.Reports e := by
  unfold decision emitDecision at h
  cases hv : frameView a.frame with
  | ignored => simp [hv] at h
  | sentinel k => simp [hv] at h
  | ipv4 ip =>
    simp only [hv] at h
    refine ⟨ip, hv, ?_⟩
    split at h
    · next hb =>
      simp only [Option.ite_none_right_eq_some, Option.some.injEq] at h
      rw [if_pos hb, h.2]
    · next hb =>
      simp only [Option.ite_none_right_eq_some, Option.some.injEq] at h
      rw [if_neg hb, h.2]

theorem not_dropped_of_decision (h : a.decision cfg m = none) : a.dropped = false := by
  by_contra hd
  have hdrop := (@dropped_iff cfg m a).mp (Bool.not_eq_false _ ▸ hd)
  have hsome := (Pipeline.decision_isSome cfg m a).1 _ (xdpKwatchProg_eq ..)
    (hdrop _ (xdpKwatchProg_eq ..))
  rw [h] at hsome
  cases hsome

end Arrival

namespace Pipeline

variable {cfg : KwatchRuntimeConfig} {consumer : RingBuf.Consumer} {s s' : Pipeline}
  {as emitted kept : List Arrival} {beyond unreserved : ℕ}

/-- The packets that have arrived, those for which an event was decided, and those whose event was
not lost, with the true numbers of losses behind the two counters. -/
structure Traced (as emitted kept : List Arrival) (beyond unreserved : ℕ) (s : Pipeline) :
    Prop where
  dropped : (as.filter Arrival.dropped).Sublist emitted
  arrived : emitted.Sublist as
  decided : kept.Sublist emitted
  reports : List.Forall₂ Arrival.Reports kept (s.ring.delivered ++ s.maps.events)
  lost : emitted.length = kept.length + beyond + unreserved
  droppedCount : s.ring.droppedCount = UInt64.ofNat beyond
  ringbufDrops : s.maps.ringbufDrops = UInt64.ofNat unreserved

theorem traced_start : Traced [] [] [] 0 0 start :=
  ⟨.refl [], .refl [], .refl [], .nil, rfl, rfl, rfl⟩

theorem Traced.packet (h : Traced as emitted kept beyond unreserved s) {a : Arrival}
    (hst : s.step cfg consumer (.packet a) = some s') :
    ∃ emitted' kept' u, unreserved ≤ u ∧ Traced (as ++ [a]) emitted' kept' beyond u s' := by
  obtain ⟨s₁, h₁, hring, hacc⟩ := step_packet cfg consumer s a
  obtain rfl : s₁ = s' := Option.some.inj (h₁.symm.trans hst)
  have hcount : s₁.ring.droppedCount = UInt64.ofNat beyond := by rw [hring, h.droppedCount]
  have hfilter : ((as ++ [a]).filter Arrival.dropped).Sublist (emitted ++ [a]) := by
    rw [List.filter_append]
    exact h.dropped.append List.filter_sublist
  split at hacc
  · next hd =>
    simp only [Prod.mk.injEq] at hacc
    obtain ⟨-, hev, hk⟩ := hacc
    refine ⟨emitted, kept, unreserved, le_rfl, ⟨?_, h.arrived.trans (List.sublist_append_left ..),
      h.decided, by rw [hring, hev]; exact h.reports, h.lost, hcount, hk.trans h.ringbufDrops⟩⟩
    rw [List.filter_append, List.filter_singleton, Arrival.not_dropped_of_decision hd]
    simpa using h.dropped
  · next e hd =>
    split at hacc
    · simp only [Prod.mk.injEq] at hacc
      obtain ⟨-, hev, hk⟩ := hacc
      refine ⟨emitted ++ [a], kept, unreserved + 1, Nat.le_succ _, ⟨hfilter,
        h.arrived.append (.refl _), h.decided.trans (List.sublist_append_left ..),
        by rw [hring, hev]; exact h.reports, ?_, hcount, ?_⟩⟩
      · rw [List.length_append, h.lost, List.length_singleton]
        omega
      · rw [hk, h.ringbufDrops, UInt64.ofNat_add]
        rfl
    · simp only [Prod.mk.injEq] at hacc
      obtain ⟨-, hev, hk⟩ := hacc
      refine ⟨emitted ++ [a], kept ++ [a], unreserved, le_rfl, ⟨hfilter,
        h.arrived.append (.refl _), h.decided.append (.refl _), ?_, ?_, hcount,
        hk.trans h.ringbufDrops⟩⟩
      · rw [hring, hev, ← List.append_assoc]
        exact List.rel_append h.reports (.cons (Arrival.reports_of_decision hd) .nil)
      · simp only [List.length_append, h.lost, List.length_singleton]
        omega

theorem Traced.consume (hlib : consumer.DeliversInOrder)
    (h : Traced as emitted kept beyond unreserved s) {budget : UInt64} {hpos : 0 < budget}
    (hst : s.step cfg consumer (.consume budget hpos) = some s') :
    ∃ kept' b, beyond ≤ b ∧ Traced as emitted kept' b unreserved s' := by
  cases hst
  obtain ⟨hd, hk, -, he⟩ := RingBuf.consume_spec hlib hpos s.maps.events s.ring
  set n := s.ring.delivered.length + budget.toNat with hn
  have hlen : kept.length = s.ring.delivered.length + s.maps.events.length := by
    rw [h.reports.length_eq, List.length_append]
  have htake : (s.ring.delivered ++ s.maps.events).take n =
      s.ring.delivered ++ s.maps.events.take budget.toNat := by
    rw [hn, List.take_length_add_append]
  refine ⟨kept.take n, beyond + (s.maps.events.length - budget.toNat), Nat.le_add_right _ _,
    ⟨h.dropped, h.arrived, (List.take_sublist ..).trans h.decided, ?_, ?_, ?_, h.ringbufDrops⟩⟩
  · simp only [hd, he, List.append_nil, ← htake]
    exact List.forall₂_take n h.reports
  · rw [List.length_take, h.lost]
    omega
  · rw [hk, h.droppedCount, UInt64.ofNat_add]

/-- What the packets of a run have come to. -/
theorem exists_traced (hlib : consumer.DeliversInOrder) {steps : List PipelineStep}
    (hrun : Run.exec (step cfg consumer) start steps = some s) : ∃ emitted kept beyond unreserved,
      Traced (steps.filterMap PipelineStep.arrival?) emitted kept beyond unreserved s := by
  induction steps using List.reverseRecOn generalizing s with
  | nil =>
    cases hrun
    exact ⟨[], [], 0, 0, traced_start⟩
  | append_singleton steps st ih =>
    rw [Run.exec_append, Option.bind_eq_some_iff] at hrun
    obtain ⟨s₁, h₁, hst⟩ := hrun
    obtain ⟨emitted, kept, beyond, unreserved, h⟩ := ih h₁
    rw [List.filterMap_append]
    cases st with
    | packet a =>
      obtain ⟨emitted', kept', u, -, h'⟩ := h.packet hst
      exact ⟨emitted', kept', beyond, u, h'⟩
    | consume budget hpos =>
      obtain ⟨kept', b, -, h'⟩ := h.consume hlib hst
      have hnone : [PipelineStep.consume budget hpos].filterMap PipelineStep.arrival? = [] := rfl
      rw [hnone, List.append_nil]
      exact ⟨emitted, kept', b, unreserved, h'⟩

end Pipeline

end KWatch
