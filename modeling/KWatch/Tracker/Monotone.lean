import KWatch.Tracker.Aggregation
import KWatch.Tracker.Sources

/-! # Stronger attacks

Whether a snapshot flags a source depends on the sums of its SYN and ACK counts, which the tracker
keeps in 32 bits. Two snapshots that differ in their counts only are compared by these sums: with
more SYNs and fewer ACKs the second flags what the first does, unless on the way from the one to
the other a sum is carried past its width.
-/

namespace KWatch

open FlowTracker

/-- The same flow, seen at the same times, with at least as many SYNs and at most as many ACKs. -/
structure FlowMapEntry.Stronger (e f : FlowMapEntry) : Prop where
  key : e.key = f.key
  first : e.stats.firstSeenNs = f.stats.firstSeenNs
  last : e.stats.lastSeenNs = f.stats.lastSeenNs
  syn : e.stats.synCount ≤ f.stats.synCount
  ack : f.stats.ackCount ≤ e.stats.ackCount

theorem FlowMapEntry.Stronger.refl (e : FlowMapEntry) : e.Stronger e :=
  ⟨rfl, rfl, rfl, UInt32.le_refl _, UInt32.le_refl _⟩

/-- The second snapshot has the flows of the first, in some order, under a stronger attack. -/
def StrongerSnapshot (es fs : List FlowMapEntry) : Prop :=
  ∃ gs, List.Forall₂ FlowMapEntry.Stronger es gs ∧ gs.Perm fs

theorem strongerSnapshot_of_forall₂ {es fs : List FlowMapEntry}
    (h : List.Forall₂ FlowMapEntry.Stronger es fs) : StrongerSnapshot es fs :=
  ⟨fs, h, .refl fs⟩

theorem strongerSnapshot_refl (es : List FlowMapEntry) : StrongerSnapshot es es :=
  strongerSnapshot_of_forall₂ (List.forall₂_same.mpr fun e _ => .refl e)

/-- The SYN packets in some entries. -/
def synTotal (es : List FlowMapEntry) : ℕ := (es.map fun e => e.stats.synCount.toNat).sum

/-- The ACK packets in some entries. -/
def ackTotal (es : List FlowMapEntry) : ℕ := (es.map fun e => e.stats.ackCount.toNat).sum

/-- The sums over two lists of entries are carried past 32 bits equally often, in particular when
none of them is. -/
structure SameCarries (es fs : List FlowMapEntry) : Prop where
  syn : synTotal es / 2 ^ 32 = synTotal fs / 2 ^ 32
  ack : ackTotal es / 2 ^ 32 = ackTotal fs / 2 ^ 32

/-- How far the SYNs exceed the ACKs when both are counted in 32 bits. -/
def excess (es : List FlowMapEntry) : ℕ := synTotal es % 2 ^ 32 - ackTotal es % 2 ^ 32

namespace FlowTracker

variable {t : FlowTracker} {now : UInt64} {ip : UInt32} {es fs : List FlowMapEntry}

/-! ### Which sources a snapshot flags -/

theorem flagged_snapshot_of_not_live (h : liveEntries t.synWindowNs now es ip = []) :
    (t.processFlowSnapshot es now).Flagged ip ↔ (resetStale t.synWindowNs now
      (nextGeneration t.snapshotGeneration) (statsOf t.ipStats ip)).isFlagged = true := by
  rw [flagged_iff_statsOf, statsOf_processFlowSnapshot, mergeAll_eq_none_iff.mpr h]
  rfl

theorem flagged_snapshot_of_live (h : liveEntries t.synWindowNs now es ip ≠ []) :
    (t.processFlowSnapshot es now).Flagged ip ↔ t.Flagged ip ∨
      t.synThreshold.toNat ≤ excess (liveEntries t.synWindowNs now es ip) := by
  obtain ⟨g, hg⟩ := Option.ne_none_iff_exists'.mp (mt mergeAll_eq_none_iff.mp h)
  have hsum := summed_applyAggregate hg t.synThreshold (nextGeneration t.snapshotGeneration)
    (statsOf t.ipStats ip)
  rw [flagged_iff_statsOf, statsOf_processFlowSnapshot, hg, snapshotStats, hsum.flagged, hsum.syn,
    hsum.ack, Bool.or_eq_true, decide_eq_true_iff, flagged_iff_statsOf]
  rfl

/-! ### Two snapshots -/

theorem isLive_of_stronger {window : UInt64} {e f : FlowMapEntry} (h : e.Stronger f) :
    isLive window now e = isLive window now f := by
  unfold isLive
  rw [h.key, h.first, h.last]

variable (ip) in
theorem live_of_stronger (window now : UInt64) {e f : FlowMapEntry} (h : e.Stronger f) :
    (isLive window now e && e.key.srcIp == ip) = (isLive window now f && f.key.srcIp == ip) := by
  rw [isLive_of_stronger h, h.key]

theorem forall₂_liveEntries {window : UInt64} (h : List.Forall₂ FlowMapEntry.Stronger es fs) :
    List.Forall₂ FlowMapEntry.Stronger (liveEntries window now es ip)
      (liveEntries window now fs ip) := by
  apply List.rel_filter _ h
  intro e f hef
  dsimp only
  rw [live_of_stronger ip window now hef]

theorem perm_liveEntries {window : UInt64} (h : es.Perm fs) :
    (liveEntries window now es ip).Perm (liveEntries window now fs ip) := h.filter _

theorem synTotal_le (h : StrongerSnapshot es fs) : synTotal es ≤ synTotal fs := by
  obtain ⟨gs, hgs, hperm⟩ := h
  have hle := Sums.sum_le_of_forall₂ (v := fun e => e.stats.synCount.toNat)
    (fun _ _ hef => UInt32.le_iff_toNat_le.mp hef.syn) hgs
  exact hle.trans_eq (hperm.map _).sum_eq

theorem ackTotal_le (h : StrongerSnapshot es fs) : ackTotal fs ≤ ackTotal es := by
  obtain ⟨gs, hgs, hperm⟩ := h
  have hflip : List.Forall₂ (fun f e => FlowMapEntry.Stronger e f) gs es := hgs.flip
  have hle := Sums.sum_le_of_forall₂ (v := fun e => e.stats.ackCount.toNat)
    (fun _ _ hef => UInt32.le_iff_toNat_le.mp hef.ack) hflip
  exact (hperm.map _).sum_eq.symm.trans_le hle

/-- As long as the sums are carried equally often, the excess grows. -/
theorem excess_le_of_sameCarries (h : StrongerSnapshot es fs) (hc : SameCarries es fs) :
    excess es ≤ excess fs := by
  have hs := synTotal_le h
  have ha := ackTotal_le h
  obtain ⟨hsyn, hack⟩ := hc
  unfold excess
  omega

theorem liveEntries_strongerSnapshot (h : StrongerSnapshot es fs) (window now : UInt64)
    (ip : UInt32) :
    StrongerSnapshot (liveEntries window now es ip) (liveEntries window now fs ip) := by
  obtain ⟨gs, hgs, hperm⟩ := h
  exact ⟨_, forall₂_liveEntries hgs, perm_liveEntries hperm⟩

theorem strongerSnapshot_eq_nil_iff (h : StrongerSnapshot es fs) : es = [] ↔ fs = [] := by
  obtain ⟨gs, hgs, hperm⟩ := h
  rw [← List.length_eq_zero_iff, hgs.length_eq, hperm.length_eq, List.length_eq_zero_iff]

/-! ### Snapshots between two -/

/-- Some SYNs of the stronger flow. -/
theorem exists_between_syn {e f : FlowMapEntry} (h : e.Stronger f) {m : ℕ}
    (hlo : e.stats.synCount.toNat ≤ m) (hhi : m ≤ f.stats.synCount.toNat) :
    ∃ g, e.Stronger g ∧ g.Stronger f ∧ g.stats.synCount.toNat = m := by
  have hm : (UInt32.ofNat m).toNat = m :=
    UInt32.toNat_ofNat_of_lt' (hhi.trans_lt f.stats.synCount.toNat_lt)
  refine ⟨{ f with stats := { f.stats with synCount := .ofNat m } }, ?_, ?_, hm⟩
  · refine ⟨h.key, h.first, h.last, UInt32.le_iff_toNat_le.mpr ?_, h.ack⟩
    rwa [hm]
  · refine ⟨rfl, rfl, rfl, UInt32.le_iff_toNat_le.mpr ?_, UInt32.le_refl _⟩
    rwa [hm]

/-- Some ACKs of the weaker flow. -/
theorem exists_between_ack {e f : FlowMapEntry} (h : e.Stronger f) {m : ℕ}
    (hlo : f.stats.ackCount.toNat ≤ m) (hhi : m ≤ e.stats.ackCount.toNat) :
    ∃ g, e.Stronger g ∧ g.Stronger f ∧ g.stats.ackCount.toNat = m := by
  have hm : (UInt32.ofNat m).toNat = m :=
    UInt32.toNat_ofNat_of_lt' (hhi.trans_lt e.stats.ackCount.toNat_lt)
  refine ⟨{ f with stats := { f.stats with ackCount := .ofNat m } }, ?_, ?_, hm⟩
  · refine ⟨h.key, h.first, h.last, h.syn, UInt32.le_iff_toNat_le.mpr ?_⟩
    rwa [hm]
  · refine ⟨rfl, rfl, rfl, UInt32.le_refl _, UInt32.le_iff_toNat_le.mpr ?_⟩
    rwa [hm]

/-- On the way to a stronger attack the SYNs of a source pass through every number. -/
theorem exists_between_synTotal (h : StrongerSnapshot es fs) (window now : UInt64) (ip : UInt32)
    {m : ℕ} (hlo : synTotal (liveEntries window now es ip) ≤ m)
    (hhi : m ≤ synTotal (liveEntries window now fs ip)) :
    ∃ gs, StrongerSnapshot es gs ∧ StrongerSnapshot gs fs ∧
      synTotal (liveEntries window now gs ip) = m := by
  obtain ⟨fs', hfs', hperm⟩ := h
  have hhi' : m ≤ synTotal (liveEntries window now fs' ip) :=
    hhi.trans_eq ((perm_liveEntries hperm).map _).sum_eq.symm
  obtain ⟨gs, hlow, hhigh, hgs⟩ := Sums.exists_forall₂_filter_sum_eq
    (v := fun e : FlowMapEntry => e.stats.synCount.toNat) FlowMapEntry.Stronger.refl
    (fun _ _ => live_of_stronger ip window now) (fun _ _ hef => UInt32.le_iff_toNat_le.mp hef.syn)
    (fun _ _ hef _ => exists_between_syn hef) hfs' hlo hhi'
  exact ⟨gs, strongerSnapshot_of_forall₂ hlow, ⟨fs', hhigh, hperm⟩, hgs⟩

/-- And so do its ACKs. -/
theorem exists_between_ackTotal (h : StrongerSnapshot es fs) (window now : UInt64) (ip : UInt32)
    {m : ℕ} (hlo : ackTotal (liveEntries window now fs ip) ≤ m)
    (hhi : m ≤ ackTotal (liveEntries window now es ip)) :
    ∃ gs, StrongerSnapshot es gs ∧ StrongerSnapshot gs fs ∧
      ackTotal (liveEntries window now gs ip) = m := by
  obtain ⟨fs', hfs', hperm⟩ := h
  have hlo' : ackTotal (liveEntries window now fs' ip) ≤ m :=
    ((perm_liveEntries hperm).map _).sum_eq.trans_le hlo
  have hflip : List.Forall₂ (fun f e => FlowMapEntry.Stronger e f) fs' es := hfs'.flip
  obtain ⟨gs, hlow, hhigh, hgs⟩ := Sums.exists_forall₂_filter_sum_eq
    (R := fun f e => FlowMapEntry.Stronger e f)
    (v := fun e : FlowMapEntry => e.stats.ackCount.toNat) FlowMapEntry.Stronger.refl
    (fun _ _ hef => (live_of_stronger ip window now hef).symm)
    (fun _ _ hef => UInt32.le_iff_toNat_le.mp hef.ack)
    (fun _ _ hef m hlow hhigh => by
      obtain ⟨g, heg, hgf, hg⟩ := exists_between_ack hef hlow hhigh
      exact ⟨g, hgf, heg, hg⟩) hflip hlo' hhi
  exact ⟨gs, strongerSnapshot_of_forall₂ hhigh.flip, ⟨fs', hlow.flip, hperm⟩, hgs⟩

/-- A sum that is carried on the way hides the source there: just past the carry there are no SYNs
in 32 bits, just before it as many ACKs as there can be. -/
theorem exists_between_excess_eq_zero (h : StrongerSnapshot es fs) {window : UInt64}
    (hc : ¬SameCarries (liveEntries window now es ip) (liveEntries window now fs ip)) :
    ∃ gs, StrongerSnapshot es gs ∧ StrongerSnapshot gs fs ∧
      excess (liveEntries window now gs ip) = 0 := by
  have hlive := liveEntries_strongerSnapshot h window now ip
  have hs := synTotal_le hlive
  have ha := ackTotal_le hlive
  by_cases hsyn : synTotal (liveEntries window now es ip) / 2 ^ 32 =
      synTotal (liveEntries window now fs ip) / 2 ^ 32
  · have hack : ackTotal (liveEntries window now es ip) / 2 ^ 32 ≠
        ackTotal (liveEntries window now fs ip) / 2 ^ 32 := fun hack => hc ⟨hsyn, hack⟩
    obtain ⟨gs, hlow, hhigh, hgs⟩ := exists_between_ackTotal h window now ip
      (m := ackTotal (liveEntries window now es ip) / 2 ^ 32 * 2 ^ 32 - 1)
      (by omega) (by omega)
    refine ⟨gs, hlow, hhigh, ?_⟩
    rw [excess, hgs]
    omega
  · obtain ⟨gs, hlow, hhigh, hgs⟩ := exists_between_synTotal h window now ip
      (m := synTotal (liveEntries window now fs ip) / 2 ^ 32 * 2 ^ 32) (by omega) (by omega)
    refine ⟨gs, hlow, hhigh, ?_⟩
    rw [excess, hgs]
    omega

/-! ### When stronger attacks stay flagged -/

/-- The sums of a snapshot between two are carried as often as those of both. -/
theorem sameCarries_between {gs : List FlowMapEntry} (hc : SameCarries es fs)
    (h : StrongerSnapshot es gs) (h' : StrongerSnapshot gs fs) : SameCarries es gs := by
  have hs := synTotal_le h
  have hs' := synTotal_le h'
  have ha := ackTotal_le h
  have ha' := ackTotal_le h'
  obtain ⟨hsyn, hack⟩ := hc
  constructor <;> omega

/-- Two flows of one source with the given SYN count each. -/
def twoFlows (syns : UInt32) : List FlowMapEntry :=
  [⟨⟨7, 9, 1, 80, 6⟩, ⟨syns, 0, 5, 5⟩⟩, ⟨⟨7, 9, 2, 80, 6⟩, ⟨syns, 0, 5, 5⟩⟩]

theorem stronger_twoFlows {m n : UInt32} (h : m ≤ n) : StrongerSnapshot (twoFlows m) (twoFlows n) :=
  strongerSnapshot_of_forall₂ (.cons ⟨rfl, rfl, rfl, h, UInt32.le_refl _⟩
    (.cons ⟨rfl, rfl, rfl, h, UInt32.le_refl _⟩ .nil))

/-- A source that a snapshot flags is flagged by a stronger one, and by every snapshot between the
two, exactly if it was flagged before, the threshold is 0, or the sums over its live entries are
carried equally often in both. -/
theorem flags_stronger_iff (t : FlowTracker) (now : UInt64) {es fs : List FlowMapEntry}
    (h : StrongerSnapshot es fs) {ip : UInt32} (hflag : (t.processFlowSnapshot es now).Flagged ip) :
    (∀ gs, StrongerSnapshot es gs → StrongerSnapshot gs fs →
        (t.processFlowSnapshot gs now).Flagged ip) ↔
      t.Flagged ip ∨ t.synThreshold = 0 ∨
        SameCarries (liveEntries t.synWindowNs now es ip)
          (liveEntries t.synWindowNs now fs ip) := by
  have hlive := fun {gs} (hgs : StrongerSnapshot es gs) =>
    strongerSnapshot_eq_nil_iff (liveEntries_strongerSnapshot hgs t.synWindowNs now ip)
  by_cases hnil : liveEntries t.synWindowNs now es ip = []
  · have hnone := (hlive h).mp hnil
    refine iff_of_true (fun gs hgs _ => ?_) (Or.inr (Or.inr ?_))
    · rw [flagged_snapshot_of_not_live hnil] at hflag
      exact (flagged_snapshot_of_not_live ((hlive hgs).mp hnil)).mpr hflag
    · rw [hnil, hnone]
      exact ⟨rfl, rfl⟩
  · have hiff : ∀ {gs}, StrongerSnapshot es gs → ((t.processFlowSnapshot gs now).Flagged ip ↔
        t.Flagged ip ∨ t.synThreshold.toNat ≤ excess (liveEntries t.synWindowNs now gs ip)) :=
      fun hgs => flagged_snapshot_of_live (mt (hlive hgs).mpr hnil)
    constructor
    · intro hall
      by_contra hnot
      rw [not_or, not_or] at hnot
      obtain ⟨hfresh, hthr, hc⟩ := hnot
      obtain ⟨gs, hlow, hhigh, hzero⟩ := exists_between_excess_eq_zero h hc
      have hreach := ((hiff hlow).mp (hall gs hlow hhigh)).resolve_left hfresh
      rw [hzero] at hreach
      exact hthr (UInt32.toNat_inj.mp (Nat.le_zero.mp hreach))
    · rintro hcond gs hlow hhigh
      rw [hiff hlow]
      rcases hcond with hold | hthr | hc
      · exact Or.inl hold
      · rw [hthr]
        exact Or.inr (Nat.zero_le _)
      · have hgrow := excess_le_of_sameCarries
          (liveEntries_strongerSnapshot hlow t.synWindowNs now ip)
          (sameCarries_between hc (liveEntries_strongerSnapshot hlow _ _ _)
            (liveEntries_strongerSnapshot hhigh _ _ _))
        have hfirst := (hiff (strongerSnapshot_refl es)).mp hflag
        exact hfirst.imp_right fun hreach => hreach.trans hgrow

/-- From 100 SYNs in each of two flows to 1000 nothing is carried. -/
theorem flags_stronger_iff_two :
    ((create 100 10 true 300).processFlowSnapshot (twoFlows 100) 6).Flagged 7 ∧
      ∀ gs, StrongerSnapshot (twoFlows 100) gs → StrongerSnapshot gs (twoFlows 1000) →
        ((create 100 10 true 300).processFlowSnapshot gs 6).Flagged 7 := by
  have hflag : ((create 100 10 true 300).processFlowSnapshot (twoFlows 100) 6).Flagged 7 :=
    ⟨_, rfl, rfl⟩
  refine ⟨hflag, ?_⟩
  apply (flags_stronger_iff _ _ (stronger_twoFlows (by decide)) hflag).mpr
  exact Or.inr (Or.inr ⟨by decide +kernel, by decide +kernel⟩)

/-- Two flows with 100 SYNs each are an attack, and with `2 ^ 31` SYNs each they are none. -/
theorem wrapped_attack_hidden : StrongerSnapshot (twoFlows 100) (twoFlows 0x80000000) ∧
    ((create 100 10 true 300).processFlowSnapshot (twoFlows 100) 6).Flagged 7 ∧
    ¬((create 100 10 true 300).processFlowSnapshot (twoFlows 0x80000000) 6).Flagged 7 := by
  refine ⟨stronger_twoFlows (by decide), ⟨_, rfl, rfl⟩, ?_⟩
  rintro ⟨s, hs, hf⟩
  have hget : ((create 100 10 true 300).processFlowSnapshot (twoFlows 0x80000000) 6).ipStats.get?
      7 = some ⟨0, 0, 5, 0, 1, false, false, 0⟩ := rfl
  rw [hget] at hs
  cases hs
  cases hf

end FlowTracker

end KWatch
