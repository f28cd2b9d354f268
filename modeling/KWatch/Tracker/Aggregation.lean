import KWatch.Library.Sums
import KWatch.Tracker.Lifecycle

/-! # The specification of a snapshot

A snapshot gives each source with live entries the sums and the latest activity of these entries,
clears the other sources that are stale, and leaves the rest alone. The mark by which the second
pass knows the sources of the first is the number of snapshots so far, so it is fresh as long as
that number fits in it.
-/

namespace KWatch

open FlowTracker

/-- An entry is live when it is TCP and was seen, and started, within the window. -/
def FlowMapEntry.LiveAt (window now : ℕ) (e : FlowMapEntry) : Prop :=
  e.key.protocol = 6 ∧ e.stats.lastSeenNs ≠ 0 ∧ now ≤ e.stats.lastSeenNs.toNat + window ∧
    (e.stats.firstSeenNs = 0 ∨ now ≤ e.stats.firstSeenNs.toNat + window)

instance (window now : ℕ) : DecidablePred (FlowMapEntry.LiveAt window now) := fun e => by
  unfold FlowMapEntry.LiveAt
  infer_instance

/-- The live entries of a source. -/
def liveOf (window now : ℕ) (entries : List FlowMapEntry) (ip : UInt32) : List FlowMapEntry :=
  entries.filter fun e => e.LiveAt window now ∧ e.key.srcIp = ip

theorem liveEntries_eq (window now : UInt64) (entries : List FlowMapEntry) (ip : UInt32) :
    liveEntries window now entries ip = liveOf window.toNat now.toNat entries ip := by
  apply List.filter_congr
  intro e _
  rw [Bool.eq_iff_iff, Bool.and_eq_true, isLive_iff, beq_iff_eq, decide_eq_true_iff,
    FlowMapEntry.LiveAt]
  tauto

/-- A source that is neither live nor blocked is stale when it never acted or last acted more than
the window ago. -/
def IpStats.StaleAt (window now : ℕ) (s : IpStats) : Prop :=
  s.isBlocked = false ∧ (s.lastEventNs = 0 ∨ s.lastEventNs.toNat + window < now)

/-- The statistics of a source after its live entries have been summed. -/
structure Summed (threshold : UInt32) (live : List FlowMapEntry) (old new : IpStats) : Prop where
  syn : new.synCount.toNat = (live.map fun e => e.stats.synCount.toNat).sum % 2 ^ 32
  ack : new.ackCount.toNat = (live.map fun e => e.stats.ackCount.toNat).sum % 2 ^ 32
  latest : ∃ e ∈ live, new.lastEventNs = e.stats.lastSeenNs
  last : ∀ e ∈ live, e.stats.lastSeenNs.toNat ≤ new.lastEventNs.toNat
  flagged : new.isFlagged =
    (old.isFlagged || decide (threshold.toNat ≤ new.synCount.toNat - new.ackCount.toNat))

/-- What a snapshot does to the table of a tracker. -/
structure SnapshotSpec (threshold : UInt32) (window now : ℕ) (entries : List FlowMapEntry)
    (t t' : Table UInt32 IpStats) : Prop where
  live : ∀ ip, liveOf window now entries ip ≠ [] → ∃ s, t'.get? ip = some s ∧
    Summed threshold (liveOf window now entries ip) ((t.get? ip).getD {}) s
  stale : ∀ ip s, liveOf window now entries ip = [] → t.get? ip = some s → s.StaleAt window now →
    t'.get? ip = some { s with synCount := 0, ackCount := 0, isFlagged := false }
  other : ∀ ip, liveOf window now entries ip = [] →
    (∀ s, t.get? ip = some s → ¬s.StaleAt window now) → t'.get? ip = t.get? ip
  kept : ∀ ip, ((t'.get? ip).getD {}).isBlocked = ((t.get? ip).getD {}).isBlocked ∧
    ((t'.get? ip).getD {}).blockStartNs = ((t.get? ip).getD {}).blockStartNs ∧
    ((t'.get? ip).getD {}).lastTtl = ((t.get? ip).getD {}).lastTtl

namespace FlowTracker

/-! ### One aggregate -/

/-- The latest activity of an aggregate is that of one of its entries. -/
theorem mergeAll_lastSeen {es : List FlowMapEntry} {g : FlowAggregate} (h : mergeAll es = some g) :
    (∃ e ∈ es, g.lastSeenNs = e.stats.lastSeenNs) ∧
      ∀ e ∈ es, e.stats.lastSeenNs.toNat ≤ g.lastSeenNs.toNat := by
  refine mergeAll_induction (fun e => ?_) (fun es g e ih => ?_) h
  · simp [newAggregate]
  · obtain ⟨⟨e', he', hlast⟩, hle⟩ := ih
    simp only [addEntry, UInt64.lt_iff_toNat_lt, List.mem_append, List.mem_singleton]
    split
    · next hlt =>
      constructor
      · exact ⟨e, Or.inr rfl, rfl⟩
      · rintro e₁ (he₁ | rfl)
        · exact (hle e₁ he₁).trans hlt.le
        · exact le_refl _
    · next hlt =>
      constructor
      · exact ⟨e', Or.inl he', hlast⟩
      · rintro e₁ (he₁ | rfl)
        · exact hle e₁ he₁
        · exact not_lt.mp hlt

theorem toNat_unmatchedSyns (syn ack : UInt32) :
    (unmatchedSyns syn ack).toNat = syn.toNat - ack.toNat := by
  unfold unmatchedSyns
  split
  · next h =>
    rw [UInt32.lt_iff_toNat_lt] at h
    exact UInt32.toNat_sub_of_le _ _ (UInt32.le_iff_toNat_le.mpr h.le)
  · next h =>
    rw [UInt32.lt_iff_toNat_lt, not_lt] at h
    simp [Nat.sub_eq_zero_of_le h]

theorem summed_applyAggregate {es : List FlowMapEntry} {g : FlowAggregate}
    (h : mergeAll es = some g) (threshold : UInt32) (gen : UInt64) (old : IpStats) :
    Summed threshold es old (applyAggregate threshold gen g old) := by
  obtain ⟨hsyn, hack⟩ := mergeAll_counts h
  obtain ⟨hlatest, hlast⟩ := mergeAll_lastSeen h
  constructor
  · rw [applyAggregate, hsyn, Sums.toNat_sum, List.map_map]
    rfl
  · rw [applyAggregate, hack, Sums.toNat_sum, List.map_map]
    rfl
  · exact hlatest
  · exact hlast
  · simp only [applyAggregate, UInt32.le_iff_toNat_le, toNat_unmatchedSyns]

/-! ### The mark of a snapshot -/

/-- After so many snapshots no source carries a later mark. -/
structure MarkedUpTo (n : ℕ) (t : FlowTracker) : Prop where
  generation : t.snapshotGeneration.toNat = n
  marks : ∀ ip s, t.ipStats.get? ip = some s → s.snapshotGeneration.toNat ≤ n

theorem toNat_nextGeneration {g : UInt64} (h : g.toNat < 2 ^ 64 - 1) :
    (nextGeneration g).toNat = g.toNat + 1 := by
  have hadd : (g + 1).toNat = g.toNat + 1 := by
    rw [UInt64.toNat_add]
    exact Nat.mod_eq_of_lt (by simp; omega)
  unfold nextGeneration
  rw [if_neg, hadd]
  intro hz
  rw [hz] at hadd
  simp at hadd

theorem MarkedUpTo.processEvent {n : ℕ} {t : FlowTracker} (ht : MarkedUpTo n t) (e : KwatchEvent) :
    MarkedUpTo n (t.processEvent e) := by
  constructor
  · exact ht.generation
  · intro ip s hs
    rw [processEvent_get?] at hs
    split at hs
    · cases hs
      rw [noteEvent_snapshotGeneration]
      cases hold : t.ipStats.get? ip with
      | none => simp
      | some s => exact ht.marks ip s hold
    · exact ht.marks ip s hs

theorem MarkedUpTo.processFlowSnapshot {n : ℕ} {t : FlowTracker} (ht : MarkedUpTo n t)
    (hn : n < 2 ^ 64 - 1) (entries : List FlowMapEntry) (now : UInt64) :
    MarkedUpTo (n + 1) (t.processFlowSnapshot entries now) := by
  have hgen : (nextGeneration t.snapshotGeneration).toNat = n + 1 := by
    rw [toNat_nextGeneration (ht.generation.symm ▸ hn), ht.generation]
  constructor
  · exact hgen
  · intro ip s hs
    rw [processFlowSnapshot_get?] at hs
    cases hg : mergeAll (liveEntries t.synWindowNs now entries ip) with
    | some g =>
      simp only [nextStats, hg, Option.some.injEq] at hs
      rw [← hs]
      exact hgen.le
    | none =>
      simp only [nextStats, hg, Option.map_eq_some_iff] at hs
      obtain ⟨s₀, hs₀, rfl⟩ := hs
      have hold := ht.marks ip s₀ hs₀
      obtain ⟨-, -, -, hmark⟩ := resetStale_keeps t.synWindowNs now
        (nextGeneration t.snapshotGeneration) s₀
      rw [hmark]
      exact hold.trans (Nat.le_succ n)

theorem MarkedUpTo.tickAndGetBlocks {n : ℕ} {t : FlowTracker} (ht : MarkedUpTo n t)
    (now : UInt64) : MarkedUpTo n (t.tickAndGetBlocks now).1 := by
  have hmap : ∀ ip s,
      (t.ipStats.mapVals fun _ => startBlock t.autoBlockEnabled now).get? ip = some s →
      s.snapshotGeneration.toNat ≤ n := by
    intro ip s hs
    rw [Table.get?_mapVals, Option.map_eq_some_iff] at hs
    obtain ⟨s₀, hs₀, rfl⟩ := hs
    unfold startBlock
    split
    all_goals exact ht.marks ip s₀ hs₀
  constructor
  · exact ht.generation
  · intro ip s hs
    rw [FlowTracker.tickAndGetBlocks, evictIdle_get?] at hs
    split at hs
    · exact hmap ip s (Option.filter_eq_some_iff.mp hs).1
    · exact hmap ip s hs

theorem MarkedUpTo.getExpiredBlocks {n : ℕ} {t : FlowTracker} (ht : MarkedUpTo n t)
    (now : UInt64) : MarkedUpTo n (t.getExpiredBlocks now).1 := by
  constructor
  · exact ht.generation
  · intro ip s hs
    rw [FlowTracker.getExpiredBlocks, Table.get?_mapVals, Option.map_eq_some_iff] at hs
    obtain ⟨s₀, hs₀, rfl⟩ := hs
    unfold releaseBlock
    split
    all_goals exact ht.marks ip s₀ hs₀

/-! ### The specification -/

/-- A tracker in which the next mark is fresh meets the specification. -/
theorem processFlowSnapshot_spec {n : ℕ} {t : FlowTracker} (ht : MarkedUpTo n t)
    (hn : n < 2 ^ 64 - 1) (entries : List FlowMapEntry) (now : UInt64) :
    SnapshotSpec t.synThreshold t.synWindowNs.toNat now.toNat entries t.ipStats
      (t.processFlowSnapshot entries now).ipStats := by
  have hnext (ip : UInt32) := processFlowSnapshot_get? entries now t ip
  have hfresh (ip : UInt32) (s : IpStats) (hs : t.ipStats.get? ip = some s) :
      (s.snapshotGeneration == nextGeneration t.snapshotGeneration) = false := by
    have hmark := ht.marks ip s hs
    have hgen := toNat_nextGeneration (ht.generation.symm ▸ hn)
    rw [ht.generation] at hgen
    rw [beq_eq_false_iff_ne]
    intro he
    rw [he] at hmark
    omega
  simp only [liveEntries_eq] at hnext
  constructor
  · intro ip hlive
    obtain ⟨g, hg⟩ := Option.ne_none_iff_exists'.mp (mt mergeAll_eq_none_iff.mp hlive)
    rw [hnext, hg]
    exact ⟨_, rfl, summed_applyAggregate hg ..⟩
  · intro ip s hnone hs hstale
    have hreset : (s.lastEventNs == 0 || outOfWindow t.synWindowNs now s.lastEventNs) = true := by
      rw [Bool.or_eq_true, beq_iff_eq, outOfWindow_iff]
      exact hstale.2
    rw [hnext, hnone, hs]
    simp [nextStats, mergeAll, resetStale, hfresh ip s hs, hstale.1, hreset]
  · intro ip hnone hkeep
    rw [hnext, hnone]
    cases hs : t.ipStats.get? ip with
    | none => rfl
    | some s =>
      have hreset : s.isBlocked = false →
          (s.lastEventNs == 0 || outOfWindow t.synWindowNs now s.lastEventNs) = false := by
        intro hb
        rw [← Bool.not_eq_true, Bool.or_eq_true, beq_iff_eq, outOfWindow_iff]
        exact fun hstale => hkeep s hs ⟨hb, hstale⟩
      simp only [nextStats, mergeAll, List.foldl_nil, Option.map_some, resetStale,
        hfresh ip s hs, Bool.false_or]
      cases hb : s.isBlocked with
      | true => simp
      | false => simp [hreset hb]
  · intro ip
    rw [hnext]
    cases mergeAll (liveOf t.synWindowNs.toNat now.toNat entries ip) with
    | some g => exact ⟨rfl, rfl, rfl⟩
    | none =>
      cases t.ipStats.get? ip with
      | none => exact ⟨rfl, rfl, rfl⟩
      | some s =>
        simp only [nextStats, Option.map_some, Option.getD_some, resetStale]
        split_ifs <;> exact ⟨rfl, rfl, rfl⟩

/-! ### The order of the entries -/

theorem mergeAll_srcIp {es : List FlowMapEntry} {g : FlowAggregate} (h : mergeAll es = some g)
    {ip : UInt32} (hip : ∀ e ∈ es, e.key.srcIp = ip) : g.srcIp = ip := by
  induction es using List.reverseRecOn generalizing g with
  | nil => cases h
  | append_singleton es e ih =>
    have he : e.key.srcIp = ip := hip e (by simp)
    rw [mergeAll_append] at h
    cases h
    rw [mergeEntry_srcIp, he]
    intro g' hg'
    rw [he]
    exact ih hg' fun e' he' => hip e' (List.mem_append_left _ he')

/-- The aggregate of a source does not depend on the order of its entries. -/
theorem mergeAll_perm {es es' : List FlowMapEntry} (hp : es.Perm es') {ip : UInt32}
    (hip : ∀ e ∈ es, e.key.srcIp = ip) : mergeAll es = mergeAll es' := by
  cases hg : mergeAll es with
  | none =>
    rw [mergeAll_eq_none_iff] at hg
    subst hg
    rw [List.nil_perm.mp hp]
    rfl
  | some g =>
    have hne : es' ≠ [] := by
      rintro rfl
      rw [List.perm_nil.mp hp] at hg
      cases hg
    obtain ⟨g', hg'⟩ := Option.ne_none_iff_exists'.mp (mt mergeAll_eq_none_iff.mp hne)
    have hs := summed_applyAggregate hg 0 0 {}
    have hs' := summed_applyAggregate hg' 0 0 {}
    have hsrc : g.srcIp = g'.srcIp := by
      rw [mergeAll_srcIp hg hip, mergeAll_srcIp hg' fun e he => hip e (hp.mem_iff.mpr he)]
    have hsyn : g.synCount = g'.synCount := by
      apply UInt32.toNat_inj.mp
      exact (hs.syn.trans (by rw [(hp.map _).sum_eq])).trans hs'.syn.symm
    have hack : g.ackCount = g'.ackCount := by
      apply UInt32.toNat_inj.mp
      exact (hs.ack.trans (by rw [(hp.map _).sum_eq])).trans hs'.ack.symm
    have hlast : g.lastSeenNs = g'.lastSeenNs := by
      obtain ⟨e, he, heq⟩ := hs.latest
      obtain ⟨e', he', heq'⟩ := hs'.latest
      have hle := hs'.last e (hp.mem_iff.mp he)
      have hle' := hs.last e' (hp.mem_iff.mpr he')
      simp only [applyAggregate] at heq heq' hle hle'
      rw [← heq] at hle
      rw [← heq'] at hle'
      exact UInt64.toNat_inj.mp (le_antisymm hle hle')
    rw [hg']
    obtain ⟨ip₁, syn, ack, last⟩ := g
    simp only at hsrc hsyn hack hlast
    rw [hsrc, hsyn, hack, hlast]

theorem processFlowSnapshot_perm {entries entries' : List FlowMapEntry}
    (hp : entries.Perm entries') (now : UInt64) (t : FlowTracker) (ip : UInt32) :
    (t.processFlowSnapshot entries now).ipStats.get? ip =
      (t.processFlowSnapshot entries' now).ipStats.get? ip := by
  rw [processFlowSnapshot_get?, processFlowSnapshot_get?]
  have hip : ∀ e ∈ liveEntries t.synWindowNs now entries ip, e.key.srcIp = ip := by
    intro e he
    have hlive := (List.mem_filter.mp he).2
    simp only [Bool.and_eq_true, beq_iff_eq] at hlive
    exact hlive.2
  have hlive : (liveEntries t.synWindowNs now entries ip).Perm
      (liveEntries t.synWindowNs now entries' ip) := hp.filter _
  rw [mergeAll_perm hlive hip]

end FlowTracker

/-! ### Reachable trackers -/

def TrackerCall.isSnapshot : TrackerCall → Bool
  | .processFlowSnapshot _ _ => true
  | _ => false

namespace LoggedTracker

/-- The configuration of a tracker. -/
def config (t : FlowTracker) : UInt32 × UInt64 × Bool × UInt64 :=
  (t.synThreshold, t.synWindowNs, t.autoBlockEnabled, t.autoBlockTtlNs)

theorem config_call (s : LoggedTracker) (c : TrackerCall) :
    config (s.call c).tracker = config s.tracker := by
  cases c <;> rfl

theorem config_run (t : FlowTracker) (calls : List TrackerCall) :
    config (run t calls).tracker = config t := by
  induction calls using List.reverseRecOn with
  | nil => rfl
  | append_singleton calls c ih =>
    rw [run, List.foldl_append]
    exact (config_call _ c).trans ih

theorem markedUpTo_run (threshold window : UInt32) (autoBlock : Bool) (ttl : UInt32)
    {calls : List TrackerCall} (hc : calls.countP TrackerCall.isSnapshot < 2 ^ 64) :
    FlowTracker.MarkedUpTo (calls.countP TrackerCall.isSnapshot)
      (run (.create threshold window autoBlock ttl) calls).tracker := by
  induction calls using List.reverseRecOn with
  | nil =>
    constructor
    · rfl
    · intro ip s hs
      cases hs
  | append_singleton calls c ih =>
    rw [List.countP_append, List.countP_singleton] at hc ⊢
    have ih := ih (by omega)
    rw [run, List.foldl_append]
    cases c with
    | processEvent e => exact ih.processEvent e
    | processFlowSnapshot entries now =>
      simp only [TrackerCall.isSnapshot, if_true] at hc ⊢
      exact ih.processFlowSnapshot (by omega) entries now
    | tickAndGetBlocks now => exact ih.tickAndGetBlocks now
    | getExpiredBlocks now => exact ih.getExpiredBlocks now

/-- After fewer than 2⁶⁴ - 1 snapshots the next one meets the specification, and its result does
not depend on the order of the entries. -/
theorem snapshot_aggregates (threshold window : UInt32) (autoBlock : Bool) (ttl : UInt32)
    {calls : List TrackerCall} (hc : calls.countP TrackerCall.isSnapshot < 2 ^ 64 - 1)
    (entries : List FlowMapEntry) (now : UInt64) :
    let t := (run (.create threshold window autoBlock ttl) calls).tracker
    SnapshotSpec threshold (window.toNat * 1000000000) now.toNat entries t.ipStats
        (t.processFlowSnapshot entries now).ipStats ∧
      ∀ entries', entries'.Perm entries →
        (t.processFlowSnapshot entries' now).snapshotGeneration =
            (t.processFlowSnapshot entries now).snapshotGeneration ∧
          ∀ ip, (t.processFlowSnapshot entries' now).ipStats.get? ip =
            (t.processFlowSnapshot entries now).ipStats.get? ip := by
  intro t
  constructor
  · have hc' : calls.countP TrackerCall.isSnapshot < 2 ^ 64 := by omega
    have hmark := markedUpTo_run threshold window autoBlock ttl hc'
    have hspec := FlowTracker.processFlowSnapshot_spec hmark hc entries now
    have hconfig : config t = config (.create threshold window autoBlock ttl) := config_run ..
    simp only [config, Prod.mk.injEq] at hconfig
    have hwindow : t.synWindowNs.toNat = window.toNat * 1000000000 := by
      rw [hconfig.2.1]
      exact FlowTracker.toNat_seconds window
    have hthreshold : t.synThreshold = threshold := hconfig.1
    rw [← hwindow, ← hthreshold]
    exact hspec
  · intro entries' hp
    exact ⟨rfl, FlowTracker.processFlowSnapshot_perm hp now t⟩

/-- A second snapshot sums two flows of a source. -/
theorem snapshot_aggregates_twice :
    let t := (run (.create 3 10 true 60) [.processFlowSnapshot [] 5]).tracker
    SnapshotSpec 3 (10 * 1000000000) 8
      [⟨⟨7, 9, 1, 2, 6⟩, ⟨3, 0, 5, 5⟩⟩, ⟨⟨7, 9, 3, 2, 6⟩, ⟨2, 1, 6, 7⟩⟩]
        t.ipStats (t.processFlowSnapshot
          [⟨⟨7, 9, 1, 2, 6⟩, ⟨3, 0, 5, 5⟩⟩, ⟨⟨7, 9, 3, 2, 6⟩, ⟨2, 1, 6, 7⟩⟩] 8).ipStats := by
  have hc : [TrackerCall.processFlowSnapshot [] 5].countP TrackerCall.isSnapshot < 2 ^ 64 - 1 := by
    decide
  exact (snapshot_aggregates 3 10 true 60 hc _ 8).1

end LoggedTracker

end KWatch
