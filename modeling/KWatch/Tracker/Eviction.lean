import KWatch.Tracker.Influence
import KWatch.Tracker.Sources

/-! # Eviction is invisible

A tracker that evicts idle sources and one that keeps them all hold different tables. The eviction
takes only sources that are neither flagged nor blocked, and the activity of a source matters only
while it is flagged, so the two give the same answers to the same calls.
-/

namespace KWatch

namespace FlowTracker

/-- `tick_and_get_blocks` with `evict_idle` removed. -/
def tickWithoutEviction (now : UInt64) (t : FlowTracker) : FlowTracker × List UInt32 :=
  ({ t with ipStats := t.ipStats.mapVals fun _ => startBlock t.autoBlockEnabled now },
    (t.ipStats.entries.filter fun e => shouldBlock t.autoBlockEnabled e.2).map Prod.fst)

/-- Statistics that lead to the same answers: the flag and the block agree, and for a flagged
source also what the clearing of stale sources reads. -/
structure ActsAlike (s u : IpStats) : Prop where
  flagged : s.isFlagged = u.isFlagged
  blocked : s.isBlocked = u.isBlocked
  start : s.isBlocked = true → s.blockStartNs = u.blockStartNs
  activity : s.isFlagged = true → s.lastEventNs = u.lastEventNs
  generation : s.isFlagged = true → s.snapshotGeneration = u.snapshotGeneration

variable {s u : IpStats}

theorem actsAlike_refl (s : IpStats) : ActsAlike s s :=
  ⟨rfl, rfl, fun _ => rfl, fun _ => rfl, fun _ => rfl⟩

theorem ActsAlike.note (h : ActsAlike s u) (e : KwatchEvent) :
    ActsAlike (noteEvent e s) (noteEvent e u) := by
  obtain ⟨hb, hf, hs⟩ := noteEvent_flags e s
  obtain ⟨hb', hf', hs'⟩ := noteEvent_flags e u
  constructor
  · rw [hf, hf', h.flagged]
  · rw [hb, hb', h.blocked]
  · rw [hb, hs, hs']
    exact h.start
  · intro hfl
    rw [noteEvent_lastEventNs, noteEvent_lastEventNs, h.activity (hf ▸ hfl)]
  · intro hfl
    rw [noteEvent_snapshotGeneration, noteEvent_snapshotGeneration, h.generation (hf ▸ hfl)]

theorem ActsAlike.aggregate (h : ActsAlike s u) (threshold : UInt32) (gen : UInt64)
    (g : FlowAggregate) :
    ActsAlike (applyAggregate threshold gen g s) (applyAggregate threshold gen g u) :=
  { flagged := by simp only [applyAggregate, h.flagged]
    blocked := h.blocked
    start := h.start
    activity := fun _ => rfl
    generation := fun _ => rfl }

/-- The clearing of a stale source makes no difference to an unflagged one. -/
theorem ActsAlike.reset (h : ActsAlike s u) (window now gen : UInt64) :
    ActsAlike (resetStale window now gen s) (resetStale window now gen u) := by
  obtain ⟨hb, hst, -⟩ := resetStale_keeps window now gen s
  obtain ⟨hb', hst', -⟩ := resetStale_keeps window now gen u
  cases hf : s.isFlagged with
  | false =>
    have hs := resetStale_not_flagged hf window now gen
    have hu := resetStale_not_flagged (h.flagged ▸ hf) window now gen
    exact
      { flagged := hs.trans hu.symm
        blocked := by rw [hb, hb', h.blocked]
        start := by rw [hb, hst, hst']; exact h.start
        activity := fun hfl => by rw [hs] at hfl; cases hfl
        generation := fun hfl => by rw [hs] at hfl; cases hfl }
  | true =>
    have hact := h.activity hf
    have hgen := h.generation hf
    unfold resetStale
    rw [← hgen, ← h.blocked, ← hact]
    split_ifs
    · exact h
    · exact ⟨rfl, rfl, h.start, fun _ => rfl, fun _ => rfl⟩
    · exact h

theorem ActsAlike.startBlock (h : ActsAlike s u) (autoBlock : Bool) (now : UInt64) :
    ActsAlike (startBlock autoBlock now s) (startBlock autoBlock now u) := by
  unfold FlowTracker.startBlock shouldBlock
  rw [← h.flagged, ← h.blocked]
  split
  · exact ⟨rfl, rfl, fun _ => rfl, h.activity, h.generation⟩
  · exact h

theorem ActsAlike.isExpired (h : ActsAlike s u) (ttl now : UInt64) :
    isExpired ttl now s = isExpired ttl now u := by
  unfold FlowTracker.isExpired
  rw [← h.blocked]
  cases hb : s.isBlocked with
  | false => rfl
  | true => rw [h.start hb]

theorem ActsAlike.releaseBlock (h : ActsAlike s u) (ttl now : UInt64) :
    ActsAlike (releaseBlock ttl now s) (releaseBlock ttl now u) := by
  unfold FlowTracker.releaseBlock
  rw [h.isExpired]
  split
  · exact ⟨rfl, rfl, nofun, nofun, nofun⟩
  · exact h

/-- A source that may be evicted acts like a new one. -/
theorem actsAlike_of_isEvictable {now : UInt64} (he : isEvictable now s = true) :
    ActsAlike {} s := by
  simp only [isEvictable, Bool.and_eq_true, Bool.not_eq_eq_eq_not, Bool.not_true] at he
  obtain ⟨⟨-, hf⟩, hb⟩ := he
  -- the new source is neither flagged nor blocked
  constructor
  · exact hf.symm
  · exact hb.symm
  · rintro ⟨⟩
  · rintro ⟨⟩
  · rintro ⟨⟩

theorem ActsAlike.trans {s u v : IpStats} (h : ActsAlike s u) (h' : ActsAlike u v) :
    ActsAlike s v :=
  { flagged := h.flagged.trans h'.flagged
    blocked := h.blocked.trans h'.blocked
    start := fun hb => (h.start hb).trans (h'.start (h.blocked ▸ hb))
    activity := fun hf => (h.activity hf).trans (h'.activity (h.flagged ▸ hf))
    generation := fun hf => (h.generation hf).trans (h'.generation (h.flagged ▸ hf)) }

/-! ### The two trackers -/

/-- A tracker and one that has evicted less, after the same calls. -/
structure Shadows (t u : FlowTracker) : Prop where
  threshold : t.synThreshold = u.synThreshold
  window : t.synWindowNs = u.synWindowNs
  autoBlock : t.autoBlockEnabled = u.autoBlockEnabled
  ttl : t.autoBlockTtlNs = u.autoBlockTtlNs
  generation : t.snapshotGeneration = u.snapshotGeneration
  sources : ∀ ip, ActsAlike (statsOf t.ipStats ip) (statsOf u.ipStats ip)

variable {t u : FlowTracker}

theorem shadows_refl (t : FlowTracker) : t.Shadows t :=
  ⟨rfl, rfl, rfl, rfl, rfl, fun _ => actsAlike_refl _⟩

theorem Shadows.processEvent (h : t.Shadows u) (e : KwatchEvent) :
    (t.processEvent e).Shadows (u.processEvent e) :=
  { h with
    sources := fun ip => by
      rw [statsOf_processEvent, statsOf_processEvent]
      split
      · exact (h.sources ip).note e
      · exact h.sources ip }

theorem Shadows.processFlowSnapshot (h : t.Shadows u) (entries : List FlowMapEntry)
    (now : UInt64) :
    (t.processFlowSnapshot entries now).Shadows (u.processFlowSnapshot entries now) :=
  { h with
    generation := congrArg nextGeneration h.generation
    sources := fun ip => by
      rw [statsOf_processFlowSnapshot, statsOf_processFlowSnapshot, ← h.window]
      unfold snapshotStats
      rw [← h.threshold, ← h.window, ← h.generation]
      split
      · exact (h.sources ip).aggregate ..
      · exact (h.sources ip).reset .. }

/-- A tick is one without eviction, followed by the eviction. -/
theorem tickAndGetBlocks_eq (now : UInt64) (t : FlowTracker) :
    t.tickAndGetBlocks now =
      (evictIdle now (t.tickWithoutEviction now).1, (t.tickWithoutEviction now).2) := rfl

theorem Shadows.tickWithoutEviction (h : t.Shadows u) (now : UInt64) :
    (t.tickWithoutEviction now).1.Shadows (u.tickWithoutEviction now).1 :=
  { h with
    sources := fun ip => by
      simp only [FlowTracker.tickWithoutEviction]
      rw [statsOf_mapVals _ (startBlock_default ..), statsOf_mapVals _ (startBlock_default ..),
        ← h.autoBlock]
      exact (h.sources ip).startBlock .. }

theorem Shadows.evictIdle (h : t.Shadows u) (now : UInt64) : (t.evictIdle now).Shadows u :=
  { h with
    sources := fun ip => by
      rcases statsOf_evictIdle now t ip with hk | ⟨he, hk⟩
      · rw [hk]
        exact h.sources ip
      · rw [hk]
        exact (actsAlike_of_isEvictable he).trans (h.sources ip) }

theorem Shadows.tick (h : t.Shadows u) (now : UInt64) :
    (t.tickAndGetBlocks now).1.Shadows (u.tickWithoutEviction now).1 ∧
      ∀ ip, ip ∈ (t.tickAndGetBlocks now).2 ↔ ip ∈ (u.tickWithoutEviction now).2 := by
  constructor
  · rw [tickAndGetBlocks_eq]
    exact (h.tickWithoutEviction now).evictIdle now
  · intro ip
    have hu : ip ∈ (u.tickWithoutEviction now).2 ↔ ip ∈ (u.tickAndGetBlocks now).2 := Iff.rfl
    rw [hu, mem_tick_iff_statsOf, mem_tick_iff_statsOf, shouldBlock, shouldBlock, h.autoBlock,
      (h.sources ip).flagged, (h.sources ip).blocked]

theorem Shadows.getExpiredBlocks (h : t.Shadows u) (now : UInt64) :
    (t.getExpiredBlocks now).1.Shadows (u.getExpiredBlocks now).1 ∧
      ∀ ip, ip ∈ (t.getExpiredBlocks now).2 ↔ ip ∈ (u.getExpiredBlocks now).2 := by
  constructor
  · exact
      { h with
        sources := fun ip => by
          rw [statsOf_getExpiredBlocks, statsOf_getExpiredBlocks, ← h.ttl]
          exact (h.sources ip).releaseBlock .. }
  · intro ip
    rw [mem_expired_iff_statsOf, mem_expired_iff_statsOf, h.ttl, (h.sources ip).isExpired]

end FlowTracker

/-! ### Whole runs -/

namespace LoggedTracker

/-- A call of a tracker with `evict_idle` removed. -/
def callWithoutEviction (s : LoggedTracker) : TrackerCall → LoggedTracker
  | .tickAndGetBlocks now =>
    let r := s.tracker.tickWithoutEviction now
    ⟨r.1, s.log ++ [⟨r.2, some now⟩]⟩
  | c => s.call c

def runWithoutEviction (t : FlowTracker) (calls : List TrackerCall) : LoggedTracker :=
  calls.foldl callWithoutEviction ⟨t, []⟩

theorem shadows_call {s u : LoggedTracker} (ht : s.tracker.Shadows u.tracker)
    (hlog : List.Forall₂ SameAnswer s.log u.log) (c : TrackerCall) :
    (s.call c).tracker.Shadows (u.callWithoutEviction c).tracker ∧
      List.Forall₂ SameAnswer (s.call c).log (u.callWithoutEviction c).log := by
  cases c with
  | processEvent e => exact ⟨ht.processEvent e, hlog⟩
  | processFlowSnapshot entries now => exact ⟨ht.processFlowSnapshot entries now, hlog⟩
  | tickAndGetBlocks now =>
    obtain ⟨hnext, hsame⟩ := ht.tick now
    exact ⟨hnext, forall₂_concat hlog ⟨rfl, hsame⟩⟩
  | getExpiredBlocks now =>
    obtain ⟨hnext, hsame⟩ := ht.getExpiredBlocks now
    exact ⟨hnext, forall₂_concat hlog ⟨rfl, hsame⟩⟩

/-- Whatever is called and when, every call returns the same addresses with and without the
eviction of idle sources. -/
theorem eviction_invisible (threshold window : UInt32) (autoBlock : Bool) (ttl : UInt32)
    (calls : List TrackerCall) :
    List.Forall₂ SameAnswer (run (.create threshold window autoBlock ttl) calls).log
      (runWithoutEviction (.create threshold window autoBlock ttl) calls).log := by
  suffices h : (run (.create threshold window autoBlock ttl) calls).tracker.Shadows
      (runWithoutEviction (.create threshold window autoBlock ttl) calls).tracker ∧
      List.Forall₂ SameAnswer (run (.create threshold window autoBlock ttl) calls).log
        (runWithoutEviction (.create threshold window autoBlock ttl) calls).log from h.2
  induction calls using List.reverseRecOn with
  | nil => exact ⟨FlowTracker.shadows_refl _, .nil⟩
  | append_singleton calls c ih =>
    rw [run, runWithoutEviction, List.foldl_append, List.foldl_append]
    exact shadows_call ih.1 ih.2 c

end LoggedTracker

end KWatch
