import KWatch.Tracker.Snapshot

/-! # Blocks of a source

How each operation of the tracker changes the block of a source. Events, snapshots and the
eviction keep it, a tick starts the blocks it returns and a release ends the ones it returns.
-/

namespace KWatch.FlowTracker

def Blocked (t : FlowTracker) (ip : UInt32) : Prop :=
  ∃ s, t.ipStats.get? ip = some s ∧ s.isBlocked = true

def Flagged (t : FlowTracker) (ip : UInt32) : Prop :=
  ∃ s, t.ipStats.get? ip = some s ∧ s.isFlagged = true

/-- The start of the current block of a source. -/
def blockStart (t : FlowTracker) (ip : UInt32) : Option UInt64 :=
  (t.ipStats.get? ip).bind fun s => if s.isBlocked then some s.blockStartNs else none

theorem blocked_iff_blockStart {t : FlowTracker} {ip : UInt32} :
    t.Blocked ip ↔ ∃ b, t.blockStart ip = some b := by
  unfold Blocked blockStart
  cases t.ipStats.get? ip with
  | none => simp
  | some s => cases hb : s.isBlocked <;> simp [hb]

/-- Every blocked source is flagged. -/
def BlockedFlagged (t : FlowTracker) : Prop :=
  ∀ ip s, t.ipStats.get? ip = some s → s.isBlocked = true → s.isFlagged = true

/-! ### Events and snapshots -/

theorem noteEvent_flags (e : KwatchEvent) (s : IpStats) :
    (noteEvent e s).isBlocked = s.isBlocked ∧ (noteEvent e s).isFlagged = s.isFlagged ∧
      (noteEvent e s).blockStartNs = s.blockStartNs := by
  unfold noteEvent
  dsimp only
  split_ifs <;> exact ⟨rfl, rfl, rfl⟩

theorem noteEvent_lastEventNs (e : KwatchEvent) (s : IpStats) :
    (noteEvent e s).lastEventNs = if s.lastEventNs < e.tsNs then e.tsNs else s.lastEventNs := by
  unfold noteEvent
  dsimp only
  split_ifs <;> rfl

theorem noteEvent_snapshotGeneration (e : KwatchEvent) (s : IpStats) :
    (noteEvent e s).snapshotGeneration = s.snapshotGeneration := by
  unfold noteEvent
  dsimp only
  split_ifs <;> rfl

/-- The clearing of a stale source leaves its block, its activity and its mark. -/
theorem resetStale_keeps (window now gen : UInt64) (s : IpStats) :
    (resetStale window now gen s).isBlocked = s.isBlocked ∧
      (resetStale window now gen s).blockStartNs = s.blockStartNs ∧
      (resetStale window now gen s).lastEventNs = s.lastEventNs ∧
      (resetStale window now gen s).snapshotGeneration = s.snapshotGeneration := by
  unfold resetStale
  split_ifs <;> exact ⟨rfl, rfl, rfl, rfl⟩

/-- It flags no source. -/
theorem resetStale_not_flagged {s : IpStats} (h : s.isFlagged = false) (window now gen : UInt64) :
    (resetStale window now gen s).isFlagged = false := by
  unfold resetStale
  split_ifs
  · exact h
  · rfl
  · exact h

theorem processEvent_get? (e : KwatchEvent) (t : FlowTracker) (ip : UInt32) :
    (processEvent e t).ipStats.get? ip = if ip = e.srcIp then
      some (noteEvent e ((t.ipStats.get? ip).getD {})) else t.ipStats.get? ip := by
  simp only [processEvent, Table.get?_set]
  split
  · next h => rw [h]; rfl
  · rfl

/-- How an operation may change the statistics of a source it neither blocks nor releases. -/
structure KeepsBlock (old new : Option IpStats) : Prop where
  start : (new.bind fun s => if s.isBlocked then some s.blockStartNs else none) =
    old.bind fun s => if s.isBlocked then some s.blockStartNs else none
  flagged : ∀ s s', old = some s → new = some s' → s.isBlocked = true → s.isFlagged = true →
    s'.isFlagged = true

theorem keepsBlock_refl (o : Option IpStats) : KeepsBlock o o :=
  ⟨rfl, fun s s' h h' _ hf => by rw [h] at h'; cases h'; exact hf⟩

theorem processEvent_keepsBlock (e : KwatchEvent) (t : FlowTracker) (ip : UInt32) :
    KeepsBlock (t.ipStats.get? ip) ((processEvent e t).ipStats.get? ip) := by
  rw [processEvent_get?]
  split
  · obtain ⟨hb, hf, hs⟩ := noteEvent_flags e ((t.ipStats.get? ip).getD {})
    cases ho : t.ipStats.get? ip with
    | none =>
      simp only [ho, Option.getD_none] at hb
      exact ⟨by simp [hb], fun _ _ h => by cases h⟩
    | some s =>
      simp only [ho, Option.getD_some] at hb hf hs
      refine ⟨by simp [hb, hs], fun s₁ s₂ h₁ h₂ _ hfl => ?_⟩
      cases h₁
      cases h₂
      rwa [Option.getD_some, hf]
  · exact keepsBlock_refl _

theorem nextStats_keepsBlock (t : FlowTracker) (now : UInt64) (old : Option IpStats)
    (g : Option FlowAggregate) : KeepsBlock old (nextStats t now old g) := by
  cases g with
  | some g =>
    cases old with
    | none => exact ⟨by simp [nextStats, applyAggregate], fun _ _ h => by cases h⟩
    | some s =>
      refine ⟨by simp [nextStats, applyAggregate], fun s₁ s₂ h₁ h₂ _ hf => ?_⟩
      cases h₁
      cases h₂
      simp [applyAggregate, hf]
  | none =>
    cases old with
    | none => exact ⟨rfl, fun _ _ h => by cases h⟩
    | some s =>
      by_cases hb : s.isBlocked
      · refine ⟨by simp [nextStats, resetStale, hb], fun s₁ s₂ h₁ h₂ _ hf => ?_⟩
        cases h₁
        simp only [nextStats, Option.map_some, resetStale, hb, Bool.or_true, if_true] at h₂
        cases h₂
        exact hf
      · refine ⟨?_, fun s₁ s₂ h₁ _ hb' => by cases h₁; exact absurd hb' hb⟩
        obtain ⟨hb', hs, -⟩ := resetStale_keeps t.synWindowNs now
          (nextGeneration t.snapshotGeneration) s
        simp only [nextStats, Option.map_some, Option.bind_some, hb', hs]

/-- A blocked source without live entries is left exactly as it was. -/
theorem processFlowSnapshot_blocked_unchanged {entries : List FlowMapEntry} {now : UInt64}
    {t : FlowTracker} {ip : UInt32} {s : IpStats} (hs : t.ipStats.get? ip = some s)
    (hb : s.isBlocked = true) (hl : liveEntries t.synWindowNs now entries ip = []) :
    (processFlowSnapshot entries now t).ipStats.get? ip = some s := by
  rw [processFlowSnapshot_get?, mergeAll_eq_none_iff.mpr hl, hs]
  simp [nextStats, resetStale, hb]

/-! ### Blocking and release -/

theorem evictIdle_get? (now : UInt64) (t : FlowTracker) (ip : UInt32) :
    (evictIdle now t).ipStats.get? ip =
      if kMaxIpStats < t.ipStats.size then
        (t.ipStats.get? ip).filter fun s => !isEvictable now s else t.ipStats.get? ip := by
  simp only [evictIdle]
  split
  · rw [Table.get?_filter]
  · rfl

theorem evictIdle_keepsBlock (now : UInt64) (t : FlowTracker) (ip : UInt32) :
    KeepsBlock (t.ipStats.get? ip) ((evictIdle now t).ipStats.get? ip) := by
  rw [evictIdle_get?]
  split
  · cases ho : t.ipStats.get? ip with
    | none => exact keepsBlock_refl _
    | some s =>
      rw [Option.filter_some]
      split
      · exact keepsBlock_refl _
      · next he =>
        have hb : s.isBlocked = false := by
          simp only [isEvictable, Bool.not_eq_eq_eq_not, Bool.not_true, Bool.not_eq_false,
            Bool.and_eq_true] at he
          simpa using he.2
        exact ⟨by simp [hb], fun _ _ _ h => by cases h⟩
  · exact keepsBlock_refl _

theorem mem_tick_blocks {now : UInt64} {t : FlowTracker} {ip : UInt32} :
    ip ∈ (tickAndGetBlocks now t).2 ↔
      ∃ s, t.ipStats.get? ip = some s ∧ shouldBlock t.autoBlockEnabled s = true := by
  simp only [tickAndGetBlocks, List.mem_map, List.mem_filter, Prod.exists, exists_and_right,
    exists_eq_right, Table.get?_eq_some_iff]

theorem tick_blocks_nodup (now : UInt64) (t : FlowTracker) : (tickAndGetBlocks now t).2.Nodup :=
  t.ipStats.nodup.sublist (List.filter_sublist.map _)

theorem mem_expired {now : UInt64} {t : FlowTracker} {ip : UInt32} :
    ip ∈ (getExpiredBlocks now t).2 ↔
      ∃ s, t.ipStats.get? ip = some s ∧ isExpired t.autoBlockTtlNs now s = true := by
  simp only [getExpiredBlocks, List.mem_map, List.mem_filter, Prod.exists, exists_and_right,
    exists_eq_right, Table.get?_eq_some_iff]

theorem expired_nodup (now : UInt64) (t : FlowTracker) : (getExpiredBlocks now t).2.Nodup :=
  t.ipStats.nodup.sublist (List.filter_sublist.map _)

/-- What a tick does to the blocks: the returned addresses start one, the others keep theirs. -/
theorem tick_blockStart (now : UInt64) (t : FlowTracker) (ip : UInt32) :
    (tickAndGetBlocks now t).1.blockStart ip =
        (if ip ∈ (tickAndGetBlocks now t).2 then some now else t.blockStart ip) ∧
      (ip ∈ (tickAndGetBlocks now t).2 → t.blockStart ip = none) := by
  have hk := (evictIdle_keepsBlock now
    { t with ipStats := t.ipStats.mapVals fun _ => startBlock t.autoBlockEnabled now } ip).start
  rw [Table.get?_mapVals] at hk
  have hk' : (tickAndGetBlocks now t).1.blockStart ip =
      ((t.ipStats.get? ip).map (startBlock t.autoBlockEnabled now)).bind
        fun s => if s.isBlocked then some s.blockStartNs else none := hk
  rw [hk']
  simp only [mem_tick_blocks, blockStart]
  cases t.ipStats.get? ip with
  | none => simp
  | some s =>
    cases hs : shouldBlock t.autoBlockEnabled s with
    | true =>
      have hb : s.isBlocked = false := by
        simp only [shouldBlock, Bool.and_eq_true, Bool.not_eq_eq_eq_not, Bool.not_true] at hs
        exact hs.1.2
      simp [startBlock, hs, hb]
    | false => simp [startBlock, hs]

theorem startBlock_flagged {autoBlock : Bool} {now : UInt64} {s : IpStats}
    (h : s.isBlocked = true → s.isFlagged = true) :
    (startBlock autoBlock now s).isBlocked = true →
      (startBlock autoBlock now s).isFlagged = true := by
  unfold startBlock
  split
  · next hs =>
    simp only [shouldBlock, Bool.and_eq_true] at hs
    exact fun _ => hs.1.1
  · exact h

theorem tick_blockedFlagged {t : FlowTracker} (h : t.BlockedFlagged) (now : UInt64) :
    (tickAndGetBlocks now t).1.BlockedFlagged := by
  intro ip s hs hb
  have hm : ∀ s', (t.ipStats.mapVals fun _ => startBlock t.autoBlockEnabled now).get? ip = some s' →
      s'.isBlocked = true → s'.isFlagged = true := by
    intro s' hs'
    rw [Table.get?_mapVals, Option.map_eq_some_iff] at hs'
    obtain ⟨s₀, hs₀, rfl⟩ := hs'
    exact startBlock_flagged (h ip s₀ hs₀)
  simp only [tickAndGetBlocks] at hs
  rw [evictIdle_get?] at hs
  split at hs
  · exact hm s (Option.filter_eq_some_iff.mp hs).1 hb
  · exact hm s hs hb

theorem mem_expired_iff {now : UInt64} {t : FlowTracker} {ip : UInt32} :
    ip ∈ (getExpiredBlocks now t).2 ↔
      ∃ b, t.blockStart ip = some b ∧ b + t.autoBlockTtlNs ≤ now := by
  rw [mem_expired, blockStart]
  cases t.ipStats.get? ip with
  | none => simp
  | some s => cases hb : s.isBlocked <;> simp [isExpired, hb]

/-- What a release does to the blocks: exactly the returned addresses lose theirs. -/
theorem expired_blockStart (now : UInt64) (t : FlowTracker) (ip : UInt32) :
    (getExpiredBlocks now t).1.blockStart ip =
      if ip ∈ (getExpiredBlocks now t).2 then none else t.blockStart ip := by
  have hm : ip ∈ (getExpiredBlocks now t).2 ↔
      ∃ s, t.ipStats.get? ip = some s ∧ isExpired t.autoBlockTtlNs now s = true := mem_expired
  rw [if_congr hm rfl rfl]
  simp only [blockStart, getExpiredBlocks, Table.get?_mapVals]
  cases t.ipStats.get? ip with
  | none => simp
  | some s => cases hx : isExpired t.autoBlockTtlNs now s <;> simp [releaseBlock, hx]

theorem expired_blockedFlagged {t : FlowTracker} (h : t.BlockedFlagged) (now : UInt64) :
    (getExpiredBlocks now t).1.BlockedFlagged := by
  intro ip s hs hb
  simp only [getExpiredBlocks, Table.get?_mapVals, Option.map_eq_some_iff] at hs
  obtain ⟨s₀, hs₀, rfl⟩ := hs
  unfold releaseBlock at hb ⊢
  split at hb
  · cases hb
  · next hx =>
    rw [if_neg hx]
    exact h ip s₀ hs₀ hb

theorem KeepsBlock.blockedFlagged {t t' : FlowTracker} (h : t.BlockedFlagged)
    (hk : ∀ ip, KeepsBlock (t.ipStats.get? ip) (t'.ipStats.get? ip)) : t'.BlockedFlagged := by
  intro ip s' hs' hb'
  have hstart := (hk ip).start
  simp only [hs', Option.bind_some, hb', if_true] at hstart
  obtain ⟨s, hs, hsb⟩ := Option.bind_eq_some_iff.mp hstart.symm
  have hb : s.isBlocked = true := by
    by_contra hn
    simp [hn] at hsb
  exact (hk ip).flagged s s' hs hs' hb (h ip s hs hb)

end KWatch.FlowTracker
