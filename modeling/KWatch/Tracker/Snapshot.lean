import KWatch.Tracker.Basic

/-! # What a snapshot does to a source

The one-pass aggregation keeps an index into a vector. It amounts to merging, source by source,
the live entries in their order, and the pass over the table reads each aggregate once. The
statistics of a source after a snapshot depend on its live entries and its old statistics only.
-/

namespace KWatch.FlowTracker

theorem outOfWindow_iff {window now ns : UInt64} :
    outOfWindow window now ns = true ↔ ns.toNat + window.toNat < now.toNat := by
  simp only [outOfWindow, Bool.and_eq_true, decide_eq_true_eq, UInt64.lt_iff_toNat_lt]
  constructor
  · rintro ⟨hlt, hw⟩
    rw [UInt64.toNat_sub_of_le _ _ (UInt64.le_iff_toNat_le.mpr hlt.le)] at hw
    omega
  · intro h
    have hlt : ns.toNat < now.toNat := by omega
    rw [UInt64.toNat_sub_of_le _ _ (UInt64.le_iff_toNat_le.mpr hlt.le)]
    exact ⟨hlt, by omega⟩

/-- The entries a snapshot counts: TCP flows seen and started within the window. -/
theorem isLive_iff {window now : UInt64} {e : FlowMapEntry} : isLive window now e = true ↔
    (e.key.protocol = 6 ∧ e.stats.lastSeenNs ≠ 0) ∧
      now.toNat ≤ e.stats.lastSeenNs.toNat + window.toNat ∧
      (e.stats.firstSeenNs = 0 ∨ now.toNat ≤ e.stats.firstSeenNs.toNat + window.toNat) := by
  have hout : ∀ ns : UInt64, outOfWindow window now ns = false ↔
      now.toNat ≤ ns.toNat + window.toNat := fun ns => by
    rw [← Bool.not_eq_true, outOfWindow_iff, not_lt]
  simp only [isLive, Bool.and_eq_true, Bool.not_eq_eq_eq_not, Bool.not_true, Bool.or_eq_false_iff,
    Bool.and_eq_false_iff, hout, bne_eq_false_iff_eq, beq_eq_false_iff_ne, ne_eq, and_assoc]

/-- Merge a live entry into what was collected for its source. -/
def mergeEntry (g : Option FlowAggregate) (e : FlowMapEntry) : FlowAggregate :=
  match g with
  | none => newAggregate e
  | some g => addEntry e g

/-- The live entries of a source. -/
def liveEntries (window now : UInt64) (entries : List FlowMapEntry) (ip : UInt32) :
    List FlowMapEntry :=
  entries.filter fun e => isLive window now e && e.key.srcIp == ip

/-- The aggregate of a list of entries of one source. -/
def mergeAll (entries : List FlowMapEntry) : Option FlowAggregate :=
  entries.foldl (fun g e => some (mergeEntry g e)) none

/-- The aggregate collected for a source. -/
def Aggregates.get? (a : Aggregates) (ip : UInt32) : Option FlowAggregate :=
  (a.index.get? ip).bind fun i => a.scratch[i]?

/-- The index points to the one aggregate of each source. -/
def Aggregates.Indexed (a : Aggregates) : Prop :=
  ∀ ip i, a.index.get? ip = some i ↔ ∃ g, a.scratch[i]? = some g ∧ g.srcIp = ip

theorem mergeEntry_srcIp {g : Option FlowAggregate} {e : FlowMapEntry}
    (h : ∀ g', g = some g' → g'.srcIp = e.key.srcIp) : (mergeEntry g e).srcIp = e.key.srcIp := by
  cases g with
  | none => rfl
  | some g => exact h g rfl

section Indexed

variable {a : Aggregates} {e : FlowMapEntry}

/-- A source without an index has no aggregate. -/
theorem Aggregates.Indexed.srcIp_ne (ha : a.Indexed) {ip : UInt32} (hi : a.index.get? ip = none)
    {i : ℕ} {g : FlowAggregate} (hg : a.scratch[i]? = some g) : g.srcIp ≠ ip := by
  intro he
  have hsome := (ha ip i).mpr ⟨g, hg, he⟩
  rw [hi] at hsome
  cases hsome

/-- The first entry of a source goes to the end. -/
theorem Aggregates.Indexed.append_new (ha : a.Indexed)
    (hi : a.index.get? e.key.srcIp = none) :
    (Aggregates.mk (a.index.set e.key.srcIp a.scratch.length)
      (a.scratch ++ [newAggregate e])).Indexed := by
  intro ip i
  simp only [Table.get?_set, List.getElem?_append]
  by_cases hip : ip = e.key.srcIp
  · subst hip
    simp only [if_true, Option.some.injEq]
    constructor
    · rintro rfl
      exact ⟨newAggregate e, by simp, rfl⟩
    · rintro ⟨g, hg, hs⟩
      split at hg
      · exact absurd hs (ha.srcIp_ne hi hg)
      · have := (List.getElem?_eq_some_iff.mp hg).1
        simp only [List.length_singleton] at this
        omega
  · simp only [hip, if_false, ha ip i]
    constructor
    · rintro ⟨g, hg, hs⟩
      have hlt : i < a.scratch.length := (List.getElem?_eq_some_iff.mp hg).1
      exact ⟨g, by rw [if_pos hlt]; exact hg, hs⟩
    · rintro ⟨g, hg, hs⟩
      split at hg
      · exact ⟨g, hg, hs⟩
      · have hlt := (List.getElem?_eq_some_iff.mp hg).1
        simp only [List.length_singleton] at hlt
        have h0 : i - a.scratch.length = 0 := by omega
        rw [h0] at hg
        cases hg
        exact absurd hs.symm hip

theorem Aggregates.Indexed.get?_append_new (ha : a.Indexed)
    (hi : a.index.get? e.key.srcIp = none) (ip : UInt32) :
    (Aggregates.mk (a.index.set e.key.srcIp a.scratch.length)
      (a.scratch ++ [newAggregate e])).get? ip =
      if ip = e.key.srcIp then some (mergeEntry (a.get? ip) e) else a.get? ip := by
  simp only [Aggregates.get?, Table.get?_set]
  by_cases hip : ip = e.key.srcIp
  · subst hip
    simp [hi, mergeEntry]
  · simp only [hip, if_false]
    cases hj : a.index.get? ip with
    | none => rfl
    | some j =>
      obtain ⟨g, hg, -⟩ := (ha ip j).mp hj
      have hlt : j < a.scratch.length := (List.getElem?_eq_some_iff.mp hg).1
      simp [List.getElem?_append_left hlt]

/-- A later entry of a source is added where its aggregate is. -/
theorem Aggregates.Indexed.modify_known (ha : a.Indexed) {i : ℕ}
    (hi : a.index.get? e.key.srcIp = some i) :
    (Aggregates.mk a.index (a.scratch.modify i (addEntry e))).Indexed := by
  obtain ⟨g₀, hg₀, -⟩ := (ha _ i).mp hi
  intro ip j
  simp only [ha ip j, List.getElem?_modify]
  by_cases hj : i = j
  · subst hj
    simp [hg₀, addEntry]
  · simp [hj]

theorem Aggregates.Indexed.get?_modify_known (ha : a.Indexed) {i : ℕ}
    (hi : a.index.get? e.key.srcIp = some i) (ip : UInt32) :
    (Aggregates.mk a.index (a.scratch.modify i (addEntry e))).get? ip =
      if ip = e.key.srcIp then some (mergeEntry (a.get? ip) e) else a.get? ip := by
  obtain ⟨g₀, hg₀, hs₀⟩ := (ha _ i).mp hi
  simp only [Aggregates.get?]
  by_cases hip : ip = e.key.srcIp
  · subst hip
    simp [hi, hg₀, mergeEntry]
  · simp only [hip, if_false]
    cases hj : a.index.get? ip with
    | none => rfl
    | some j =>
      obtain ⟨g, hg, hs⟩ := (ha ip j).mp hj
      have hij : i ≠ j := by
        rintro rfl
        rw [hg₀] at hg
        cases hg
        exact hip (hs.symm.trans hs₀)
      simp [hij]

theorem Aggregates.Indexed.aggregateEntry (ha : a.Indexed) (e : FlowMapEntry) :
    (aggregateEntry a e).Indexed ∧ ∀ ip, (aggregateEntry a e).get? ip =
      if ip = e.key.srcIp then some (mergeEntry (a.get? ip) e) else a.get? ip := by
  unfold FlowTracker.aggregateEntry
  cases hi : a.index.get? e.key.srcIp with
  | none => exact ⟨ha.append_new hi, ha.get?_append_new hi⟩
  | some i => exact ⟨ha.modify_known hi, ha.get?_modify_known hi⟩

end Indexed

theorem aggregate_spec (window now : UInt64) (entries : List FlowMapEntry) :
    (aggregate window now entries).Indexed ∧
      ∀ ip, (aggregate window now entries).get? ip =
        mergeAll (liveEntries window now entries ip) := by
  induction entries using List.reverseRecOn with
  | nil => exact ⟨by simp [aggregate, Aggregates.Indexed], fun _ => rfl⟩
  | append_singleton es e ih =>
    simp only [aggregate, List.foldl_append, List.foldl_cons, List.foldl_nil, liveEntries,
      List.filter_append] at ih ⊢
    by_cases hl : isLive window now e
    · obtain ⟨hidx, hget⟩ := ih.1.aggregateEntry e
      rw [if_pos hl]
      refine ⟨hidx, fun ip => ?_⟩
      rw [hget, ih.2]
      by_cases hip : ip = e.key.srcIp
      · subst hip; simp [hl, mergeAll]
      · have hne : (e.key.srcIp == ip) = false := beq_false_of_ne (Ne.symm hip)
        simp [hip, hne]
    · simp only [hl, if_false, Bool.false_eq_true]
      refine ⟨ih.1, fun ip => ?_⟩
      rw [ih.2]
      simp [hl]

theorem Aggregates.Indexed.get?_eq_some_iff {a : Aggregates} (ha : a.Indexed) {ip : UInt32}
    {g : FlowAggregate} : a.get? ip = some g ↔ g ∈ a.scratch ∧ g.srcIp = ip := by
  simp only [Aggregates.get?, Option.bind_eq_some_iff]
  constructor
  · rintro ⟨i, hi, hg⟩
    obtain ⟨g', hg', hs⟩ := (ha ip i).mp hi
    rw [hg] at hg'
    cases hg'
    exact ⟨List.mem_of_getElem? hg, hs⟩
  · rintro ⟨hm, hs⟩
    obtain ⟨i, hi⟩ := List.mem_iff_getElem?.mp hm
    exact ⟨i, (ha ip i).mpr ⟨g, hi, hs⟩, hi⟩

theorem Aggregates.Indexed.nodup {a : Aggregates} (ha : a.Indexed) :
    (a.scratch.map FlowAggregate.srcIp).Nodup := by
  rw [List.nodup_iff_getElem?_ne_getElem?]
  intro i j hij hj he
  rw [List.length_map] at hj
  simp only [List.getElem?_map, List.getElem?_eq_getElem hj,
    List.getElem?_eq_getElem (hij.trans hj), Option.map_some, Option.some.injEq] at he
  have hi' := (ha _ i).mpr ⟨_, List.getElem?_eq_getElem (hij.trans hj), rfl⟩
  have hj' := (ha _ j).mpr ⟨_, List.getElem?_eq_getElem hj, he.symm⟩
  rw [hi'] at hj'
  cases hj'
  exact lt_irrefl _ hij

/-- Writing aggregates of distinct sources changes each source once. -/
theorem foldl_applyAggregate_get? (threshold : UInt32) (gen : UInt64) (gs : List FlowAggregate)
    (hn : (gs.map FlowAggregate.srcIp).Nodup) (t : Table UInt32 IpStats) (ip : UInt32) :
    (gs.foldl (fun t g =>
        t.set g.srcIp (applyAggregate threshold gen g (statsOf t g.srcIp))) t).get? ip =
      match gs.find? (fun g => g.srcIp == ip) with
      | some g => some (applyAggregate threshold gen g (statsOf t ip))
      | none => t.get? ip := by
  induction gs generalizing t with
  | nil => rfl
  | cons g gs ih =>
    rw [List.map_cons, List.nodup_cons] at hn
    rw [List.foldl_cons, ih hn.2, List.find?_cons]
    by_cases hip : g.srcIp = ip
    · subst hip
      have hnone : gs.find? (fun g' => g'.srcIp == g.srcIp) = none := by
        rw [List.find?_eq_none]
        intro g' hg' he
        exact hn.1 (List.mem_map.mpr ⟨g', hg', by simpa using he⟩)
      simp [hnone]
    · have hb : (g.srcIp == ip) = false := beq_false_of_ne hip
      simp only [hb, statsOf, Table.get?_set_ne _ (Ne.symm hip)]

/-- The statistics of a source after a snapshot. -/
def nextStats (t : FlowTracker) (now : UInt64) (old : Option IpStats) (g : Option FlowAggregate) :
    Option IpStats :=
  match g with
  | some g =>
    some (applyAggregate t.synThreshold (nextGeneration t.snapshotGeneration) g (old.getD {}))
  | none => old.map (resetStale t.synWindowNs now (nextGeneration t.snapshotGeneration))

theorem processFlowSnapshot_get? (entries : List FlowMapEntry) (now : UInt64) (t : FlowTracker)
    (ip : UInt32) : (processFlowSnapshot entries now t).ipStats.get? ip =
      nextStats t now (t.ipStats.get? ip) (mergeAll (liveEntries t.synWindowNs now entries ip)) := by
  obtain ⟨hidx, hget⟩ := aggregate_spec t.synWindowNs now entries
  have hfind : (aggregate t.synWindowNs now entries).scratch.find? (fun g => g.srcIp == ip) =
      mergeAll (liveEntries t.synWindowNs now entries ip) := by
    rw [← hget ip]
    cases hf : (aggregate t.synWindowNs now entries).scratch.find? (fun g => g.srcIp == ip) with
    | some g =>
      have hs : g.srcIp = ip := by simpa using List.find?_some hf
      exact (hidx.get?_eq_some_iff.mpr ⟨List.mem_of_find?_eq_some hf, hs⟩).symm
    | none =>
      symm
      rw [Option.eq_none_iff_forall_ne_some]
      intro g hg
      obtain ⟨hm, hs⟩ := hidx.get?_eq_some_iff.mp hg
      have := List.find?_eq_none.mp hf g hm
      simp [hs] at this
  simp only [processFlowSnapshot, Table.get?_mapVals,
    foldl_applyAggregate_get? _ _ _ hidx.nodup, hfind, nextStats]
  cases mergeAll (liveEntries t.synWindowNs now entries ip) with
  | none => rfl
  | some g => simp [resetStale, applyAggregate, statsOf]

/-! ### Sums over live entries -/

theorem mergeAll_append (es : List FlowMapEntry) (e : FlowMapEntry) :
    mergeAll (es ++ [e]) = some (mergeEntry (mergeAll es) e) := by
  simp [mergeAll]

theorem mergeAll_eq_none_iff {es : List FlowMapEntry} : mergeAll es = none ↔ es = [] := by
  induction es using List.reverseRecOn with
  | nil => simp [mergeAll]
  | append_singleton es e _ => simp [mergeAll_append]

/-- What holds of the aggregate of one entry, and still when an entry is added to it, holds of every
aggregate. -/
@[elab_as_elim]
theorem mergeAll_induction {P : List FlowMapEntry → FlowAggregate → Prop}
    (new : ∀ e, P [e] (newAggregate e)) (add : ∀ es g e, P es g → P (es ++ [e]) (addEntry e g))
    {es : List FlowMapEntry} {g : FlowAggregate} (h : mergeAll es = some g) : P es g := by
  induction es using List.reverseRecOn generalizing g with
  | nil => cases h
  | append_singleton es e ih =>
    rw [mergeAll_append] at h
    cases hm : mergeAll es with
    | none =>
      rw [hm] at h
      cases h
      obtain rfl := mergeAll_eq_none_iff.mp hm
      exact new e
    | some g' =>
      rw [hm] at h
      cases h
      exact add es g' e (ih hm)

/-- The counts of an aggregate are the wrapping sums over its entries. -/
theorem mergeAll_counts {es : List FlowMapEntry} {g : FlowAggregate} (h : mergeAll es = some g) :
    g.synCount = (es.map fun e => e.stats.synCount).sum ∧
      g.ackCount = (es.map fun e => e.stats.ackCount).sum := by
  refine mergeAll_induction (fun e => ?_) (fun es g e ih => ?_) h
  · simp [newAggregate]
  · obtain ⟨hs, ha⟩ := ih
    simp [addEntry, hs, ha]

end KWatch.FlowTracker
