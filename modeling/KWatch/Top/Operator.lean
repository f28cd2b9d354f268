import KWatch.Top.Tick

/-! # Entries of the operator

Manual and automatic entries share the keys of one map. An entry of the operator stays as long
as no block of its address is due when a tick starts, and the operator adds no address whose
removal the tick in progress has queued. A block that is due takes the operator's entry with it.
-/

namespace KWatch.Top

open FlowTracker

/-- The steps that leave the entries of the operator alone. -/
def SparesOperator (s : Top) : TopStep → Prop
  | .tick now => ∀ ip, (hostKey ip).network ∈ s.operator → ¬ Due s.tracker now ip
  | .operatorBlock k _ => ∀ ip, MapOp.remove ip ∈ s.pending → k.network ≠ (hostKey ip).network
  | _ => True

/-- The operator's networks are in the map, and none of them waits for its removal. -/
structure OperatorSafe (s : Top) : Prop where
  stored : ∀ n ∈ s.operator, n ∈ s.blacklist.networks
  unqueued : ∀ ip, MapOp.remove ip ∈ s.pending → (hostKey ip).network ∉ s.operator

theorem OperatorSafe.step {s s' : Top} {st : TopStep} (h : s.OperatorSafe)
    (hok : s.SparesOperator st) (hst : s.step st = some s') : s'.OperatorSafe := by
  cases st with
  | operatorBlock k ok =>
    simp only [Top.step] at hst
    split at hst
    · cases hst; exact h
    · next b hb =>
      cases hst
      refine ⟨fun n hn => ?_, fun ip hip hn => ?_⟩
      · rw [mem_networks_tryUpdate hb]
        exact (Finset.mem_insert.mp hn).imp id (h.stored n)
      · rcases Finset.mem_insert.mp hn with he | hn
        · exact hok ip hip he.symm
        · exact h.unqueued ip hip hn
  | operatorUnblock k ok =>
    cases hst
    refine ⟨fun n hn => ?_, fun ip hip hn => h.unqueued ip hip (Finset.mem_of_mem_erase hn)⟩
    obtain ⟨hne, hn⟩ := Finset.mem_erase.mp hn
    exact mem_networks_tryDelete ok _ k hne (h.stored n hn)
  | processEvent e =>
    simp only [Top.step, Option.ite_none_right_eq_some, Option.some.injEq] at hst
    obtain ⟨-, rfl⟩ := hst
    exact ⟨h.stored, h.unqueued⟩
  | processFlowSnapshot entries now =>
    simp only [Top.step, Option.ite_none_right_eq_some, Option.some.injEq] at hst
    obtain ⟨-, rfl⟩ := hst
    exact ⟨h.stored, h.unqueued⟩
  | tick now =>
    simp only [Top.step, Option.ite_none_right_eq_some, Option.some.injEq] at hst
    obtain ⟨-, rfl⟩ := hst
    refine ⟨h.stored, fun ip hip hn => hok ip hn ?_⟩
    rw [← mem_toUnblock]
    simpa using hip
  | applyNext ok =>
    simp only [Top.step] at hst
    split at hst
    · cases hst
    · next op rest hp =>
      cases hst
      refine ⟨fun n hn => ?_,
        fun ip hip => h.unqueued ip (by rw [hp]; exact List.mem_cons_of_mem _ hip)⟩
      cases op with
      | insert ip => exact mem_networks_applyOp_insert ok _ ip (h.stored n hn)
      | remove ip =>
        have hq := h.unqueued ip (by rw [hp]; exact List.mem_cons_self)
        exact mem_networks_tryDelete ok _ _ (fun he => hq (he ▸ hn)) (h.stored n hn)

/-- In a run whose steps all spare the operator, every network that the operator blocked and did
not unblock since is in the map, after ticks and inside them. -/
theorem operator_entries_stay (t : FlowTracker) (b : LpmTrie) {steps : List TopStep} {s : Top}
    (hok : Run.Meets step SparesOperator (start t b) steps)
    (hrun : Run.exec step (start t b) steps = some s) :
    ∀ n ∈ s.operator, n ∈ s.blacklist.networks :=
  (Run.invariant (P := OperatorSafe) (fun _ _ _ h hok hst => h.step hok hst)
    ⟨by simp [start], by simp [start]⟩ hok hrun).stored

/-! ### An entry lost to an expired block -/

/-- The operator blocks an address, which then floods, is blocked and released a second later. -/
def manualThenFlood : List TopStep :=
  [.operatorBlock (hostKey 7) true, .processFlowSnapshot [flood 7] 6, .tick 6, .applyNext true,
    .tick 1000000006, .applyNext true]

theorem operator_entries_stay_until_release : ∃ s,
    Run.exec step (start (create 1 1 true 1) .empty) (manualThenFlood.take 4) = some s ∧
      (hostKey 7).network ∈ s.blacklist.networks := by
  refine ⟨_, rfl, @operator_entries_stay (create 1 1 true 1) .empty (manualThenFlood.take 4) _
    ⟨by rintro ip ⟨⟩, ?_⟩ rfl _ (by decide)⟩
  rintro s ⟨⟩
  refine ⟨trivial, ?_⟩
  rintro s ⟨⟩
  constructor
  · intro ip hip
    have hip : (hostKey ip).network = (hostKey 7).network := Finset.mem_singleton.mp hip
    obtain rfl := hostKey_network_injective hip
    rintro ⟨st, hst, hx⟩
    cases hst
    exact absurd hx (by decide)
  · rintro s ⟨⟩
    exact ⟨trivial, fun _ _ => trivial⟩

/-- The release of the automatic block removed the entry of the operator. -/
theorem operator_entry_lost : ∃ s,
    Run.exec step (start (create 1 1 true 1) .empty) manualThenFlood = some s ∧ s.pending = [] ∧
      (hostKey 7).network ∈ s.operator ∧ (hostKey 7).network ∉ s.blacklist.networks :=
  ⟨_, rfl, rfl, by decide, by decide⟩

end KWatch.Top
