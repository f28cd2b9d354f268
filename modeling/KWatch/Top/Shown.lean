import KWatch.Top.Dashboard

/-! # The tables of the dashboard

The recent events are the last ones that were delivered, the footer never claims a loss that has not
happened, and the threat table lists every source of the tracker once, by its SYNs and its address.
-/

namespace KWatch

/-! ### The threat table -/

namespace ThreatRow

variable {lhs rhs row : ThreatRow}

theorem outranks_iff : lhs.outranks rhs = true ↔ rhs.synCount.toNat < lhs.synCount.toNat ∨
    lhs.synCount.toNat = rhs.synCount.toNat ∧ lhs.ip.toNat < rhs.ip.toNat := by
  unfold outranks
  split_ifs with h
  · have hne : lhs.synCount.toNat ≠ rhs.synCount.toNat := fun he => h (UInt32.toNat_inj.mp he)
    simp [UInt32.lt_iff_toNat_lt, hne]
  · have he : lhs.synCount = rhs.synCount := not_not.mp h
    simp [UInt32.lt_iff_toNat_lt, he]

theorem outranks_total (lhs rhs : ThreatRow) :
    (!rhs.outranks lhs || !lhs.outranks rhs) = true := by
  by_contra h
  simp only [Bool.or_eq_true, Bool.not_eq_true', not_or, Bool.not_eq_false] at h
  obtain ⟨hl, hr⟩ := h
  rw [outranks_iff] at hl hr
  omega

theorem outranks_trans (lhs rhs row : ThreatRow) (hl : (!rhs.outranks lhs) = true)
    (hr : (!row.outranks rhs) = true) : (!row.outranks lhs) = true := by
  rw [Bool.not_eq_true', ← Bool.not_eq_true, outranks_iff] at hl hr ⊢
  omega

/-- Rows of two sources are ranked. -/
theorem outranks_of_ne (hip : lhs.ip ≠ rhs.ip) (h : (!rhs.outranks lhs) = true) :
    lhs.outranks rhs = true := by
  have hne : lhs.ip.toNat ≠ rhs.ip.toNat := fun he => hip (UInt32.toNat_inj.mp he)
  rw [Bool.not_eq_true', ← Bool.not_eq_true, outranks_iff] at h
  rw [outranks_iff]
  omega

theorem not_outranks_both (hl : lhs.outranks rhs = true) (hr : rhs.outranks lhs = true) :
    False := by
  rw [outranks_iff] at hl hr
  omega

end ThreatRow

theorem threatRows_perm (t : FlowTracker) :
    (refreshThreatSnapshot t).Perm (t.ipStats.entries.map ThreatRow.ofStats) :=
  List.mergeSort_perm _ _

/-- The rows are ranked strictly: no two have the same source. -/
theorem threatRows_ranked (t : FlowTracker) :
    (refreshThreatSnapshot t).Pairwise fun lhs rhs => lhs.outranks rhs = true := by
  have hsorted := List.pairwise_mergeSort ThreatRow.outranks_trans ThreatRow.outranks_total
    (t.ipStats.entries.map ThreatRow.ofStats)
  have hips : ((refreshThreatSnapshot t).map ThreatRow.ip).Nodup := by
    rw [((threatRows_perm t).map ThreatRow.ip).nodup_iff, List.map_map]
    exact t.ipStats.nodup
  rw [List.Nodup, List.pairwise_map] at hips
  exact hsorted.imp₂ (fun _ _ hle hip => ThreatRow.outranks_of_ne hip hle) hips

/-- The rows do not depend on the order in which the tracker keeps its sources. -/
theorem threatRows_eq_of_perm {rows : List ThreatRow} {t : FlowTracker}
    (hperm : rows.Perm (t.ipStats.entries.map ThreatRow.ofStats))
    (hranked : rows.Pairwise fun lhs rhs => lhs.outranks rhs = true) :
    rows = refreshThreatSnapshot t := by
  refine List.Perm.eq_of_pairwise ?_ hranked (threatRows_ranked t)
    (hperm.trans (threatRows_perm t).symm)
  exact fun _ _ _ _ hl hr => (ThreatRow.not_outranks_both hl hr).elim

/-! ### The recent events -/

theorem foldl_pushRecent (events more : List KwatchEvent) :
    more.foldl pushRecent (events.rtake kRecentEventCap) =
      (events ++ more).rtake kRecentEventCap := by
  induction more generalizing events with
  | nil => rw [List.foldl_nil, List.append_nil]
  | cons e more ih =>
    have hpush : pushRecent (events.rtake kRecentEventCap) e =
        (events ++ [e]).rtake kRecentEventCap :=
      (Circular.rtake_snoc_eq events e (by decide)).symm
    rw [List.foldl_cons, hpush, ih, List.append_assoc, List.singleton_append]

/-! ### Runs -/

def DashboardStep.arrival? : DashboardStep → Option Arrival
  | .packet a => some a
  | .consume | .beginTick _ | .readCounter _ | .endTick _ _ => none

namespace Dashboard

open Pipeline (Traced traced_start)

variable {cfg : KwatchRuntimeConfig} {consumer : RingBuf.Consumer} {d d' : Dashboard}
  {as emitted kept : List Arrival} {beyond unreserved : ℕ}

/-- What the tables rest on, with the true numbers of losses behind the two counters. -/
structure Shown (as emitted kept : List Arrival) (beyond unreserved : ℕ) (d : Dashboard) :
    Prop where
  traced : Traced as emitted kept beyond unreserved d.pipeline
  recent : d.recentEvents = d.pipeline.ring.delivered.rtake kRecentEventCap
  footer : ∃ n ≤ beyond + unreserved, d.eventDropCount = UInt64.ofNat n
  threats : ∃ t, d.threatRows = refreshThreatSnapshot t

/-- A change of nothing that the tables rest on. -/
theorem Shown.congr (h : Shown as emitted kept beyond unreserved d)
    (hpipeline : d'.pipeline = d.pipeline) (hrecent : d'.recentEvents = d.recentEvents)
    (hfooter : d'.eventDropCount = d.eventDropCount)
    (hthreats : ∃ t, d'.threatRows = refreshThreatSnapshot t) :
    Shown as emitted kept beyond unreserved d' :=
  ⟨hpipeline ▸ h.traced, by rw [hrecent, hpipeline]; exact h.recent,
    by rw [hfooter]; exact h.footer, hthreats⟩

theorem Shown.drained (h : Shown as emitted kept beyond unreserved d) {p : Pipeline}
    {es : List KwatchEvent} {kept' : List Arrival} {b : ℕ} (hb : beyond ≤ b)
    (hp : Traced as emitted kept' b unreserved p)
    (hes : p.ring.delivered = d.pipeline.ring.delivered ++ es) :
    Shown as emitted kept' b unreserved (d.drained p) := by
  have hnew : p.ring.delivered.drop d.pipeline.ring.delivered.length = es := by
    rw [hes, List.drop_left]
  obtain ⟨n, hn, hfooter⟩ := h.footer
  rw [Dashboard.drained, hnew, foldl_rbCb]
  refine ⟨hp, ?_, ⟨n, hn.trans (Nat.add_le_add_right hb _), hfooter⟩, h.threats⟩
  change es.foldl pushRecent d.recentEvents = p.ring.delivered.rtake kRecentEventCap
  rw [hes, h.recent]
  exact foldl_pushRecent _ es

theorem Shown.step (hlib : consumer.DeliversInOrder)
    (h : Shown as emitted kept beyond unreserved d) {st : DashboardStep}
    (hst : d.step cfg consumer st = some d') : ∃ emitted' kept' b u,
      Shown (as ++ st.arrival?.toList) emitted' kept' b u d' := by
  cases steps_of_step hst with
  | @packet a p hp =>
    obtain ⟨emitted', kept', u, hu, ht⟩ := h.traced.packet hp
    obtain ⟨n, hn, hfooter⟩ := h.footer
    obtain ⟨p', hp', hring, -⟩ := Pipeline.step_packet cfg consumer d.pipeline a
    obtain rfl : p = p' := Option.some.inj (hp.symm.trans hp')
    exact ⟨emitted', kept', beyond, u, ht, by rw [hring]; exact h.recent,
      ⟨n, hn.trans (Nat.add_le_add_left hu _), hfooter⟩, h.threats⟩
  | consume hw hp =>
    obtain ⟨kept', b, hb, ht⟩ := h.traced.consume hlib hp
    have hpos : (0 : UInt64) < 256 := by decide
    have hd := (RingBuf.consume_spec hlib hpos d.pipeline.maps.events d.pipeline.ring).1
    cases hp
    rw [DashboardStep.arrival?, Option.toList_none, List.append_nil]
    exact ⟨emitted, kept', b, unreserved, h.drained hb ht hd⟩
  | @beginTick dropsRead hw =>
    rw [DashboardStep.arrival?, Option.toList_none, List.append_nil]
    refine ⟨emitted, kept, beyond, unreserved, h.traced, h.recent, ?_, h.threats⟩
    have hb := h.traced.droppedCount
    have hu := h.traced.ringbufDrops
    cases dropsRead with
    | false =>
      refine ⟨beyond, Nat.le_add_right _ _, ?_⟩
      rw [hb]
      simp
    | true =>
      refine ⟨beyond + unreserved, le_rfl, ?_⟩
      rw [hb, hu, UInt64.ofNat_add]
      rfl
  | readCounter hw hkey hv =>
    rw [DashboardStep.arrival?, Option.toList_none, List.append_nil]
    exact ⟨emitted, kept, beyond, unreserved, h.congr rfl rfl rfl h.threats⟩
  | endTick hw hsub he =>
    rw [DashboardStep.arrival?, Option.toList_none, List.append_nil]
    obtain ⟨d₁, snap, h₁, -, rfl⟩ := endTick_eq he
    have hkeep : d₁.pipeline = d.pipeline ∧ d₁.recentEvents = d.recentEvents ∧
        d₁.eventDropCount = d.eventDropCount := by
      rcases notePps_eq h₁ with ⟨-, rfl⟩ | ⟨-, win, -, rfl⟩ <;> exact ⟨rfl, rfl, rfl⟩
    exact ⟨emitted, kept, beyond, unreserved, h.congr hkeep.1 hkeep.2.1 hkeep.2.2 ⟨_, rfl⟩⟩

/-- A packet that is drained and shown by a tick. -/
def onePacketTick : List DashboardStep :=
  [.packet ⟨bareIpv4 1, ⟨1, 1, 0, false, []⟩, .empty⟩, .consume, .beginTick true, .readCounter 1,
    .endTick (some []) 5]

end Dashboard

end KWatch
