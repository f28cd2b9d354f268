import KWatch.Detection.Sensitivity

/-! # The window of a flow entry

An entry of the flow map is created, restarted and updated by three paths of the packet program,
and it may be evicted and created again at any time. Whatever happened before, an entry describes
the packets of its flow since it was last created.
-/

namespace KWatch

open AcceptedPacket

/-- The arrival times of the packets of a flow. -/
def arrivals (ps : List AcceptedPacket) (k : KwatchFlowKey) : List UInt64 :=
  (ps.filter fun p => p.key == k).map AcceptedPacket.timeNs

/-- What an entry says about the packets since its creation. -/
structure WindowOk (window : UInt64) (ps : List AcceptedPacket) (k : KwatchFlowKey)
    (s : KwatchFlowStats) : Prop where
  first_le_last : s.firstSeenNs.toNat ≤ s.lastSeenNs.toNat
  last_le_end : s.lastSeenNs.toNat ≤ s.firstSeenNs.toNat + window.toNat
  syns : s.synCount.toNat = countSince isSyn ps k s.firstSeenNs % 2 ^ 32
  acks : s.ackCount.toNat = countSince isAck ps k s.firstSeenNs % 2 ^ 32
  latest : (arrivals ps k).getLast? = some s.lastSeenNs

/-- The steps since the entry of a flow was last created: an accepted packet finds no entry of its
flow, and from then on the flow has one. -/
structure SinceCreation (cfg : KwatchRuntimeConfig) (s₀ : System) (k : KwatchFlowKey)
    (before after : List Step) : Prop where
  created : ∃ a p, after.head? = some (.packet a) ∧ a.accepted = some p ∧ p.key = k ∧
    ∃ s, s₀.run cfg before = some s ∧ s.maps.flowState.get? k = none
  kept : ∀ past, past <+: after → past ≠ [] → ∃ s, s₀.run cfg (before ++ past) = some s ∧
    (s.maps.flowState.get? k).isSome

variable {cfg : KwatchRuntimeConfig} {s₀ s : System} {k : KwatchFlowKey} {before after : List Step}
  {ps : List AcceptedPacket} {p : AcceptedPacket} {e : KwatchFlowStats}

/-! ### Entries -/

theorem arrivals_append (ps : List AcceptedPacket) (p : AcceptedPacket) (k : KwatchFlowKey) :
    arrivals (ps ++ [p]) k = arrivals ps k ++ if p.key = k then [p.timeNs] else [] := by
  by_cases h : p.key = k <;> simp [arrivals, h]

/-- An entry that is exact for the packets since its creation and knows the last of them. -/
def ExactSince (cfg : KwatchRuntimeConfig) (ps : List AcceptedPacket) (k : KwatchFlowKey)
    (e : KwatchFlowStats) : Prop :=
  EntryExact cfg ps k e ∧ (arrivals ps k).getLast? = some e.lastSeenNs

theorem ExactSince.windowOk (h : ExactSince cfg ps k e) (hw : 0 < cfg.synWindowNs) :
    WindowOk cfg.synWindowNs ps k e := by
  obtain ⟨hx, hlast⟩ := h
  constructor
  · exact UInt64.le_iff_toNat_le.mp hx.start_le
  · exact hx.window hw
  · rw [hx.syns, UInt32.toNat_ofNat']
  · rw [hx.acks, UInt32.toNat_ofNat']
  · exact hlast

/-- The packet that creates an entry is the first that it counts. -/
theorem exactSince_new (cfg : KwatchRuntimeConfig) (p : AcceptedPacket) :
    ExactSince cfg [p] p.key (newFlowStats p.timeNs p.tcpFlags) := by
  constructor
  · have hf : EntryExact cfg ([] ++ [p]) p.key
        ⟨if p.isSyn then 1 else 0, if p.isAck then 1 else 0, p.timeNs, p.timeNs⟩ :=
      EntryExact.fresh cfg nofun nofun
    simpa [newFlowStats, isSyn_iff, isAck_iff] using hf
  · simp [arrivals, newFlowStats]

theorem ExactSince.update (h : ExactSince cfg ps p.key e)
    (hclock : ∀ q ∈ ps, q.timeNs ≤ p.timeNs) :
    ExactSince cfg (ps ++ [p]) p.key (updateFlowStats cfg p.timeNs p.tcpFlags e) := by
  constructor
  · exact h.1.update hclock
  · simp [arrivals_append, updateFlowStats]

theorem ExactSince.other (h : ExactSince cfg ps k e) (hk : k ≠ p.key) :
    ExactSince cfg (ps ++ [p]) k e := by
  constructor
  · exact h.1.other hk
  · rw [arrivals_append, if_neg (Ne.symm hk), List.append_nil]
    exact h.2

/-! ### Runs -/

theorem SinceCreation.extend (h : SinceCreation cfg s₀ k before after) {st : Step}
    (hrun : s₀.run cfg (before ++ (after ++ [st])) = some s)
    (hs : (s.maps.flowState.get? k).isSome) : SinceCreation cfg s₀ k before (after ++ [st]) := by
  constructor
  · obtain ⟨a, p, hhead, hrest⟩ := h.created
    refine ⟨a, p, ?_, hrest⟩
    rw [List.head?_append, hhead]
    rfl
  · intro past hp hne
    rcases List.prefix_concat_iff.mp hp with rfl | hp
    · exact ⟨s, hrun, hs⟩
    · exact h.kept past hp hne

/-- The steps of a run end in a part that starts with the creation of an entry, and the entry is
exact for the packets of that part. -/
def HasHistory (cfg : KwatchRuntimeConfig) (s₀ : System) (steps : List Step) (k : KwatchFlowKey)
    (e : KwatchFlowStats) : Prop :=
  ∃ before after, before ++ after = steps ∧ SinceCreation cfg s₀ k before after ∧
    ExactSince cfg (accepted after) k e

/-- Every entry is exact for the packets since its creation. -/
def EntriesSince (cfg : KwatchRuntimeConfig) (s₀ : System) (steps : List Step) (s : System) : Prop :=
  ∀ k e, s.maps.flowState.get? k = some e → HasHistory cfg s₀ steps k e

/-- A step that leaves the entry of a flow alone keeps its history, which grows by the packet that
the step accepts. -/
theorem HasHistory.keep {steps : List Step} {st : Step} (h : HasHistory cfg s₀ steps k e)
    (hrun : s₀.run cfg (steps ++ [st]) = some s) (hnew : s.maps.flowState.get? k = some e)
    (hst : ∀ p, st.accepted = some p → k ≠ p.key) : HasHistory cfg s₀ (steps ++ [st]) k e := by
  obtain ⟨before, after, rfl, hsince, hx⟩ := h
  rw [List.append_assoc] at hrun ⊢
  refine ⟨before, after ++ [st], rfl, hsince.extend hrun (by rw [hnew]; rfl), ?_⟩
  rw [accepted_append]
  cases ha : st.accepted with
  | none => simpa using hx
  | some p => exact hx.other (hst p ha)

/-- A packet that finds no entry of its flow starts a history. -/
theorem hasHistory_new {steps : List Step} {a : Arrival} {s₁ : System} (ha : a.accepted = some p)
    (h₁ : s₀.run cfg steps = some s₁) (hnone : s₁.maps.flowState.get? p.key = none)
    (hrun : s₀.run cfg (steps ++ [.packet a]) = some s)
    (hnew : (s.maps.flowState.get? p.key).isSome) :
    HasHistory cfg s₀ (steps ++ [.packet a]) p.key (newFlowStats p.timeNs p.tcpFlags) := by
  refine ⟨steps, [.packet a], rfl, ⟨⟨a, p, rfl, ha, rfl, s₁, h₁, hnone⟩, ?_⟩, ?_⟩
  · intro past hpast hne
    rcases List.prefix_cons_iff.mp hpast with hnil | ⟨t, rfl, hpre⟩
    · exact absurd hnil hne
    · rw [List.prefix_nil.mp hpre]
      exact ⟨s, hrun, hnew⟩
  · have hacc : accepted [.packet a] = [p] := by simp [accepted, Step.accepted, ha]
    rw [hacc]
    exact exactSince_new cfg p

/-- A packet that finds the entry of its flow restarts or updates it, and goes on with its history. -/
theorem HasHistory.update {steps : List Step} {a : Arrival} (h : HasHistory cfg s₀ steps p.key e)
    (ha : a.accepted = some p) (hclock : ∀ q ∈ accepted steps, q.timeNs ≤ p.timeNs)
    (hrun : s₀.run cfg (steps ++ [.packet a]) = some s)
    (hnew : (s.maps.flowState.get? p.key).isSome) :
    HasHistory cfg s₀ (steps ++ [.packet a]) p.key
      (updateFlowStats cfg p.timeNs p.tcpFlags e) := by
  obtain ⟨before, after, rfl, hsince, hx⟩ := h
  rw [List.append_assoc] at hrun ⊢
  refine ⟨before, after ++ [.packet a], rfl, hsince.extend hrun hnew, ?_⟩
  have hacc : accepted (after ++ [.packet a]) = accepted after ++ [p] := by
    rw [accepted_append, Step.accepted, ha]
    rfl
  rw [hacc]
  apply hx.update
  intro q hq
  apply hclock q
  rw [accepted, List.filterMap_append]
  exact List.mem_append_right _ hq

theorem System.run_entriesSince {t : FlowTracker} {steps : List Step}
    (hclock : (accepted steps).Pairwise fun p q => p.timeNs ≤ q.timeNs)
    (h : (start t).run cfg steps = some s) : EntriesSince cfg (start t) steps s := by
  induction steps using List.reverseRecOn generalizing s with
  | nil =>
    cases h
    rintro k e ⟨⟩
  | append_singleton steps st ih =>
    have hrun := h
    rw [run_append, Option.bind_eq_some_iff] at h
    obtain ⟨s₁, h₁, hst⟩ := h
    rw [accepted_append, List.pairwise_append] at hclock
    have ih := ih hclock.1 h₁
    intro k e he
    cases st with
    | evict key =>
      have hget : s₁.maps.flowState.get? k = some e := by
        cases hst
        rw [Table.get?_erase] at he
        split at he
        · cases he
        · exact he
      apply (ih k e hget).keep hrun he
      rintro p ⟨⟩
    | call c =>
      have hget : s₁.maps.flowState.get? k = some e := by
        cases hst
        exact he
      apply (ih k e hget).keep hrun he
      rintro p ⟨⟩
    | packet a =>
      have hget := he
      rw [(step_packet_flowState hst).2] at hget
      cases ha : a.accepted with
      | none =>
        rw [ha] at hget
        apply (ih k e hget).keep hrun he
        intro p hp
        rw [Step.accepted, ha] at hp
        cases hp
      | some p =>
        have hp : p.timeNs = a.helpers.nowNs := Arrival.timeNs_of_accepted ha
        have hsome : (s.maps.flowState.get? k).isSome := Option.isSome_of_eq_some he
        rw [ha] at hget
        rcases accountFlow_get?_cases hget with ⟨rfl, hnone, rfl⟩ | ⟨rfl, e₀, he₀, rfl⟩ | ⟨hk, hold⟩
        · rw [← hp]
          exact hasHistory_new ha h₁ hnone hrun hsome
        · rw [← hp]
          apply (ih p.key e₀ he₀).update ha _ hrun hsome
          intro q hq
          exact hclock.2.2 q hq p (by rw [Step.accepted, ha]; simp)
        · apply (ih k e hold).keep hrun he
          intro p' hp'
          rw [Step.accepted, ha, Option.some.injEq] at hp'
          rw [← hp']
          exact hk

/-- At every moment of every run, whatever is evicted, each entry of the flow map spans at most the
window, counts the SYN and ACK packets of its flow since its window began, and was last seen when
the latest packet since its creation arrived. -/
theorem flow_window_invariant (cfg : KwatchRuntimeConfig) (hw : 0 < cfg.synWindowNs)
    (t : FlowTracker) {steps : List Step}
    (hclock : (accepted steps).Pairwise fun p q => p.timeNs ≤ q.timeNs) {s : System}
    (hrun : (System.start t).run cfg steps = some s) {k : KwatchFlowKey} {e : KwatchFlowStats}
    (he : s.maps.flowState.get? k = some e) :
    ∃ before after, before ++ after = steps ∧ SinceCreation cfg (.start t) k before after ∧
      WindowOk cfg.synWindowNs (accepted after) k e := by
  obtain ⟨before, after, hsplit, hsince, hx⟩ := System.run_entriesSince hclock hrun k e he
  exact ⟨before, after, hsplit, hsince, hx.windowOk hw⟩

/-- The third SYN packet of a flow restarts its window of a second. -/
theorem flow_window_invariant_restart : ∃ s,
    (System.start (.create 1 1 true 1)).run ⟨100, 1000000000⟩ (synRun [5, 6, 2000000000]) = some s ∧
    ∃ before after, before ++ after = synRun [5, 6, 2000000000] ∧
      SinceCreation ⟨100, 1000000000⟩ (.start (.create 1 1 true 1)) synKey before after ∧
      WindowOk 1000000000 (accepted after) synKey ⟨1, 0, 2000000000, 2000000000⟩ := by
  obtain ⟨s, hrun, -, hf⟩ := run_synRun ⟨100, 1000000000⟩ (.create 1 1 true 1) [5, 6, 2000000000]
  refine ⟨s, hrun, flow_window_invariant ⟨100, 1000000000⟩ (by decide) _ ?_ hrun ?_⟩
  · rw [accepted_synRun]
    decide
  · rw [hf]
    decide +kernel

end KWatch
