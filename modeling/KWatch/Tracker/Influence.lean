import KWatch.Tracker.Aggregation

/-! # Sampled events do not influence blocking

Two runs of a tracker with the same snapshots and times but other events in between have different
tables. What blocking depends on is the same in both: the flag, the block and its start, where a
source that is not in the table counts as unflagged and unblocked.
-/

namespace KWatch

/-- What the dashboard hands the tracker in one tick, apart from events. -/
structure TickInput where
  snapshot : Option (List FlowMapEntry)
  now : UInt64

/-- The calls of one tick in their order. -/
def TickInput.calls (i : TickInput) : List TrackerCall :=
  (i.snapshot.map fun entries => .processFlowSnapshot entries i.now).toList ++
    [.tickAndGetBlocks i.now, .getExpiredBlocks i.now]

def TrackerCall.isEvent : TrackerCall → Bool
  | .processEvent _ => true
  | _ => false

/-- Answers that name the same addresses, whatever their order. -/
def SameAnswer (a b : LogEntry) : Prop := a.start = b.start ∧ ∀ ip, ip ∈ a.ips ↔ ip ∈ b.ips

/-- A snapshot comes only when every flagged source has been blocked since the last one. -/
def InOrder : Bool → List TrackerCall → Prop
  | _, [] => True
  | ready, .processEvent _ :: cs => InOrder ready cs
  | ready, .processFlowSnapshot _ _ :: cs => ready = true ∧ InOrder false cs
  | _, .tickAndGetBlocks _ :: cs => InOrder true cs
  | ready, .getExpiredBlocks _ :: cs => InOrder ready cs

namespace FlowTracker

/-- What blocking depends on: the flag and the start of the block. -/
def verdict (s : Option IpStats) : Bool × Option UInt64 :=
  ((s.getD {}).isFlagged, s.bind fun s => if s.isBlocked then some s.blockStartNs else none)

/-- Every flagged source is blocked. -/
def Settled (t : FlowTracker) : Prop :=
  ∀ ip, (verdict (t.ipStats.get? ip)).1 = true → (verdict (t.ipStats.get? ip)).2 ≠ none

/-- Two trackers that block alike. A tracker that does not block automatically has no block. -/
structure BlockAlike (t u : FlowTracker) : Prop where
  threshold : t.synThreshold = u.synThreshold
  window : t.synWindowNs = u.synWindowNs
  autoBlock : t.autoBlockEnabled = u.autoBlockEnabled
  ttl : t.autoBlockTtlNs = u.autoBlockTtlNs
  enabled : t.autoBlockEnabled = true → ∀ ip,
    verdict (t.ipStats.get? ip) = verdict (u.ipStats.get? ip)
  disabled : t.autoBlockEnabled = false → ∀ ip, (verdict (t.ipStats.get? ip)).2 = none ∧
    (verdict (u.ipStats.get? ip)).2 = none

/-! ### What each call does to the verdict -/

theorem verdict_processEvent (e : KwatchEvent) (t : FlowTracker) (ip : UInt32) :
    verdict ((t.processEvent e).ipStats.get? ip) = verdict (t.ipStats.get? ip) := by
  rw [processEvent_get?]
  split
  · obtain ⟨hb, hf, hs⟩ := noteEvent_flags e ((t.ipStats.get? ip).getD {})
    cases ho : t.ipStats.get? ip with
    | none =>
      simp only [ho, Option.getD_none] at hb hf
      simp [verdict, hb, hf]
    | some s =>
      simp only [ho, Option.getD_some] at hb hf hs
      simp [verdict, hb, hf, hs]
  · rfl

/-- The verdict of a source after a snapshot, when a flagged source is blocked. -/
theorem verdict_processFlowSnapshot {t : FlowTracker} (ht : t.Settled)
    (entries : List FlowMapEntry) (now : UInt64) (ip : UInt32) :
    verdict ((t.processFlowSnapshot entries now).ipStats.get? ip) =
      ((verdict (t.ipStats.get? ip)).1 ||
          (mergeAll (liveEntries t.synWindowNs now entries ip)).any fun g =>
            decide (t.synThreshold ≤ unmatchedSyns g.synCount g.ackCount),
        (verdict (t.ipStats.get? ip)).2) := by
  have hkeep := nextStats_keepsBlock t now (t.ipStats.get? ip)
    (mergeAll (liveEntries t.synWindowNs now entries ip))
  rw [processFlowSnapshot_get?]
  apply Prod.ext
  · cases mergeAll (liveEntries t.synWindowNs now entries ip) with
    | some g => rfl
    | none =>
      have hset := ht ip
      cases hs : t.ipStats.get? ip with
      | none => rfl
      | some s =>
        simp only [hs, verdict, Option.getD_some, Option.bind_some] at hset
        simp only [nextStats, verdict, Option.map_some, Option.getD_some, Option.any_none,
          Bool.or_false, resetStale]
        split_ifs with h₁ h₂
        · rfl
        · rw [Bool.or_eq_true, not_or] at h₁
          by_contra hf
          exact hset (by simpa using Ne.symm hf) (if_neg h₁.2)
        · rfl
  · exact hkeep.start

/-- Eviction drops only sources that look like absent ones. -/
theorem verdict_evictIdle (now : UInt64) (t : FlowTracker) (ip : UInt32) :
    verdict ((evictIdle now t).ipStats.get? ip) = verdict (t.ipStats.get? ip) := by
  rw [evictIdle_get?]
  split
  · cases hs : t.ipStats.get? ip with
    | none => rfl
    | some s =>
      rw [Option.filter_some]
      split
      · rfl
      · next he =>
        simp only [isEvictable, Bool.not_eq_eq_eq_not, Bool.not_true, Bool.not_eq_false,
          Bool.and_eq_true] at he
        simp [verdict, he.1.2, he.2]
  · rfl

/-- The verdict of a source after a tick. -/
def blockVerdict (autoBlock : Bool) (now : UInt64) (v : Bool × Option UInt64) :
    Bool × Option UInt64 :=
  (v.1, if v.1 = true ∧ v.2 = none ∧ autoBlock = true then some now else v.2)

/-- The verdict of a source after the release of expired blocks. -/
def releaseVerdict (ttl now : UInt64) (v : Bool × Option UInt64) : Bool × Option UInt64 :=
  if ∃ b, v.2 = some b ∧ b + ttl ≤ now then (false, none) else v

theorem verdict_tickAndGetBlocks (now : UInt64) (t : FlowTracker) (ip : UInt32) :
    verdict ((t.tickAndGetBlocks now).1.ipStats.get? ip) =
      blockVerdict t.autoBlockEnabled now (verdict (t.ipStats.get? ip)) := by
  rw [tickAndGetBlocks, verdict_evictIdle, Table.get?_mapVals]
  cases t.ipStats.get? ip with
  | none => simp [verdict, blockVerdict]
  | some s =>
    cases hf : s.isFlagged <;> cases hb : s.isBlocked <;> cases ha : t.autoBlockEnabled <;>
      simp [verdict, blockVerdict, startBlock, shouldBlock, hf, hb]

theorem verdict_getExpiredBlocks (now : UInt64) (t : FlowTracker) (ip : UInt32) :
    verdict ((t.getExpiredBlocks now).1.ipStats.get? ip) =
      releaseVerdict t.autoBlockTtlNs now (verdict (t.ipStats.get? ip)) := by
  rw [getExpiredBlocks, Table.get?_mapVals]
  cases t.ipStats.get? ip with
  | none => simp [verdict, releaseVerdict]
  | some s =>
    cases hb : s.isBlocked with
    | false => simp [verdict, releaseVerdict, releaseBlock, isExpired, hb]
    | true =>
      by_cases hx : s.blockStartNs + t.autoBlockTtlNs ≤ now <;>
        simp [verdict, releaseVerdict, releaseBlock, isExpired, hb, hx]

theorem mem_tick_iff_verdict {now : UInt64} {t : FlowTracker} {ip : UInt32} :
    ip ∈ (t.tickAndGetBlocks now).2 ↔ (verdict (t.ipStats.get? ip)).1 = true ∧
      (verdict (t.ipStats.get? ip)).2 = none ∧ t.autoBlockEnabled = true := by
  rw [mem_tick_blocks]
  cases t.ipStats.get? ip with
  | none => simp [verdict]
  | some s => cases hb : s.isBlocked <;> simp [verdict, shouldBlock, hb]

theorem mem_expired_iff_verdict {now : UInt64} {t : FlowTracker} {ip : UInt32} :
    ip ∈ (t.getExpiredBlocks now).2 ↔
      ∃ b, (verdict (t.ipStats.get? ip)).2 = some b ∧ b + t.autoBlockTtlNs ≤ now :=
  mem_expired_iff

/-! ### Trackers that block alike -/

theorem Settled.processEvent {t : FlowTracker} (ht : t.Settled) (e : KwatchEvent) :
    (t.processEvent e).Settled := by
  intro ip
  rw [verdict_processEvent]
  exact ht ip

theorem settled_tickAndGetBlocks (now : UInt64) (t : FlowTracker)
    (ha : t.autoBlockEnabled = true) : (t.tickAndGetBlocks now).1.Settled := by
  intro ip hf
  rw [verdict_tickAndGetBlocks] at hf ⊢
  simp only [blockVerdict] at hf ⊢
  split_ifs with h
  · exact Option.some_ne_none now
  · intro hn
    exact h ⟨hf, hn, ha⟩

theorem Settled.getExpiredBlocks {t : FlowTracker} (ht : t.Settled) (now : UInt64) :
    (t.getExpiredBlocks now).1.Settled := by
  intro ip hf
  rw [verdict_getExpiredBlocks] at hf ⊢
  unfold releaseVerdict at hf ⊢
  split_ifs at hf ⊢ with h
  exact ht ip hf

theorem BlockAlike.settled {t u : FlowTracker} (h : t.BlockAlike u)
    (ha : t.autoBlockEnabled = true) (ht : t.Settled) : u.Settled := by
  intro ip
  rw [← h.enabled ha]
  exact ht ip

theorem BlockAlike.processEvent {t u : FlowTracker} (h : t.BlockAlike u) (e : KwatchEvent) :
    (t.processEvent e).BlockAlike u :=
  { h with
    enabled := fun ha ip => by
      rw [verdict_processEvent]
      exact h.enabled ha ip
    disabled := fun ha ip => by
      rw [verdict_processEvent]
      exact h.disabled ha ip }

theorem BlockAlike.processFlowSnapshot {t u : FlowTracker} (h : t.BlockAlike u)
    (hset : t.autoBlockEnabled = true → t.Settled) (entries : List FlowMapEntry) (now : UInt64) :
    (t.processFlowSnapshot entries now).BlockAlike (u.processFlowSnapshot entries now) :=
  { threshold := h.threshold
    window := h.window
    autoBlock := h.autoBlock
    ttl := h.ttl
    enabled := fun ha ip => by
      have ht := hset ha
      rw [verdict_processFlowSnapshot ht, verdict_processFlowSnapshot (h.settled ha ht),
        h.enabled ha, h.threshold, h.window]
    disabled := fun ha ip => by
      have hkeep (t : FlowTracker) := (nextStats_keepsBlock t now (t.ipStats.get? ip)
        (mergeAll (liveEntries t.synWindowNs now entries ip))).start
      rw [processFlowSnapshot_get?, processFlowSnapshot_get?]
      exact ⟨(hkeep t).trans (h.disabled ha ip).1, (hkeep u).trans (h.disabled ha ip).2⟩ }

theorem BlockAlike.tickAndGetBlocks {t u : FlowTracker} (h : t.BlockAlike u) (now : UInt64) :
    (t.tickAndGetBlocks now).1.BlockAlike (u.tickAndGetBlocks now).1 ∧
      ∀ ip, ip ∈ (t.tickAndGetBlocks now).2 ↔ ip ∈ (u.tickAndGetBlocks now).2 := by
  constructor
  · exact
      { threshold := h.threshold
        window := h.window
        autoBlock := h.autoBlock
        ttl := h.ttl
        enabled := fun ha ip => by
          rw [verdict_tickAndGetBlocks, verdict_tickAndGetBlocks, h.enabled ha, h.autoBlock]
        disabled := fun ha ip => by
          have hoff : t.autoBlockEnabled = false := ha
          rw [verdict_tickAndGetBlocks, verdict_tickAndGetBlocks]
          simp [blockVerdict, ← h.autoBlock, hoff, h.disabled hoff ip] }
  · intro ip
    rw [mem_tick_iff_verdict, mem_tick_iff_verdict, ← h.autoBlock]
    cases ha : t.autoBlockEnabled with
    | false => simp
    | true => rw [h.enabled ha]

theorem BlockAlike.getExpiredBlocks {t u : FlowTracker} (h : t.BlockAlike u) (now : UInt64) :
    (t.getExpiredBlocks now).1.BlockAlike (u.getExpiredBlocks now).1 ∧
      ∀ ip, ip ∈ (t.getExpiredBlocks now).2 ↔ ip ∈ (u.getExpiredBlocks now).2 := by
  constructor
  · exact
      { threshold := h.threshold
        window := h.window
        autoBlock := h.autoBlock
        ttl := h.ttl
        enabled := fun ha ip => by
          rw [verdict_getExpiredBlocks, verdict_getExpiredBlocks, h.enabled ha, h.ttl]
        disabled := fun ha ip => by
          have hoff := h.disabled ha ip
          rw [verdict_getExpiredBlocks, verdict_getExpiredBlocks]
          simp [releaseVerdict, hoff] }
  · intro ip
    rw [mem_expired_iff_verdict, mem_expired_iff_verdict, ← h.ttl]
    cases ha : t.autoBlockEnabled with
    | false => simp [h.disabled ha ip]
    | true => rw [h.enabled ha]

end FlowTracker

/-! ### Runs in the order of the dashboard -/

theorem inOrder_of_filter {ready : Bool} {calls : List TrackerCall}
    (h : InOrder ready (calls.filter fun c => !c.isEvent)) : InOrder ready calls := by
  induction calls generalizing ready with
  | nil => trivial
  | cons c calls ih =>
    cases c with
    | processEvent e => exact ih h
    | processFlowSnapshot entries now => exact ⟨h.1, ih h.2⟩
    | tickAndGetBlocks now => exact @ih true h
    | getExpiredBlocks now => exact @ih ready h

theorem inOrder_ticks (ticks : List TickInput) : InOrder true (ticks.flatMap TickInput.calls) := by
  induction ticks with
  | nil => trivial
  | cons i ticks ih =>
    rw [List.flatMap_cons]
    rcases hs : i.snapshot with _ | entries
    · simpa [TickInput.calls, hs, InOrder] using ih
    · simpa [TickInput.calls, hs, InOrder] using ih

namespace LoggedTracker

open FlowTracker

/-- Two runs that have given the same answers and will block alike. -/
def Alike (s u : LoggedTracker) : Prop :=
  s.tracker.BlockAlike u.tracker ∧ List.Forall₂ SameAnswer s.log u.log

theorem forall₂_concat {as bs : List LogEntry} {a b : LogEntry}
    (h : List.Forall₂ SameAnswer as bs) (hab : SameAnswer a b) :
    List.Forall₂ SameAnswer (as ++ [a]) (bs ++ [b]) :=
  List.rel_append h (List.Forall₂.cons hab .nil)

/-- A run gives the same answers without its events. -/
theorem alike_filter {ready : Bool} {calls : List TrackerCall} {s u : LoggedTracker}
    (ho : InOrder ready calls)
    (hset : ready = true → s.tracker.autoBlockEnabled = true → s.tracker.Settled)
    (h : s.Alike u) :
    (calls.foldl call s).Alike ((calls.filter fun c => !c.isEvent).foldl call u) := by
  induction calls generalizing ready s u with
  | nil => exact h
  | cons c calls ih =>
    cases c with
    | processEvent e =>
      exact ih ho (fun hr ha => (hset hr ha).processEvent e) ⟨h.1.processEvent e, h.2⟩
    | processFlowSnapshot entries now =>
      refine ih ho.2 (fun hr => by cases hr) ⟨?_, h.2⟩
      exact h.1.processFlowSnapshot (hset ho.1) entries now
    | tickAndGetBlocks now =>
      obtain ⟨hnext, hsame⟩ := h.1.tickAndGetBlocks now
      refine @ih true _ _ ho (fun _ ha => ?_) ⟨hnext, ?_⟩
      · exact settled_tickAndGetBlocks now s.tracker ha
      · exact forall₂_concat h.2 ⟨rfl, hsame⟩
    | getExpiredBlocks now =>
      obtain ⟨hnext, hsame⟩ := h.1.getExpiredBlocks now
      refine @ih ready _ _ ho (fun hr ha => ?_) ⟨hnext, ?_⟩
      · exact (hset hr ha).getExpiredBlocks now
      · exact forall₂_concat h.2 ⟨rfl, hsame⟩

theorem blockAlike_refl {t : FlowTracker} (h : t.autoBlockEnabled = false →
    ∀ ip, (verdict (t.ipStats.get? ip)).2 = none) : t.BlockAlike t :=
  ⟨rfl, rfl, rfl, rfl, fun _ _ => rfl, fun ha ip => ⟨h ha ip, h ha ip⟩⟩

theorem sameAnswers_filter (threshold window : UInt32) (autoBlock : Bool) (ttl : UInt32)
    {calls : List TrackerCall} (ho : InOrder true calls) :
    List.Forall₂ SameAnswer (run (.create threshold window autoBlock ttl) calls).log
      (run (.create threshold window autoBlock ttl) (calls.filter fun c => !c.isEvent)).log := by
  apply (alike_filter ho _ _).2
  · intro _ _ ip hf
    cases hf
  · constructor
    · apply blockAlike_refl
      intro _ ip
      rfl
    · exact .nil

theorem sameAnswers_join {as bs cs : List LogEntry} (h : List.Forall₂ SameAnswer as bs)
    (h' : List.Forall₂ SameAnswer cs bs) : List.Forall₂ SameAnswer as cs := by
  induction h generalizing cs with
  | nil => cases h'; exact .nil
  | cons hab _ ih =>
    cases h' with
    | cons hcb hcs =>
      apply List.Forall₂.cons _ (ih hcs)
      exact ⟨hab.1.trans hcb.1.symm, fun ip => (hab.2 ip).trans (hcb.2 ip).symm⟩

/-- Two runs in the order of the dashboard with the same snapshots and times answer alike, whatever
events each of them is given and when. -/
theorem events_cannot_influence (threshold window : UInt32) (autoBlock : Bool) (ttl : UInt32)
    {ticks : List TickInput} {calls calls' : List TrackerCall}
    (h : (calls.filter fun c => !c.isEvent) = ticks.flatMap TickInput.calls)
    (h' : (calls'.filter fun c => !c.isEvent) = ticks.flatMap TickInput.calls) :
    List.Forall₂ SameAnswer (run (.create threshold window autoBlock ttl) calls).log
      (run (.create threshold window autoBlock ttl) calls').log := by
  have hs := sameAnswers_filter threshold window autoBlock ttl
    (inOrder_of_filter (h ▸ inOrder_ticks ticks))
  have hs' := sameAnswers_filter threshold window autoBlock ttl
    (inOrder_of_filter (h' ▸ inOrder_ticks ticks))
  rw [h] at hs
  rw [h'] at hs'
  exact sameAnswers_join hs hs'

/-- An event that makes a source look active does not change when it is blocked and released. -/
theorem events_cannot_influence_flood :
    let flood : TickInput := ⟨some [⟨⟨7, 9, 1, 2, 6⟩, ⟨3, 0, 5, 5⟩⟩], 6⟩
    let later : TickInput := ⟨none, 2000000000⟩
    let event : KwatchEvent := ⟨1000000000, 7, 9, 1, 2, 6, 2, 64, 0, 0, 0⟩
    List.Forall₂ SameAnswer
      (run (.create 1 1 true 1) (flood.calls ++ .processEvent event :: later.calls)).log
      (run (.create 1 1 true 1) (flood.calls ++ later.calls)).log :=
  @events_cannot_influence 1 1 true 1
    [⟨some [⟨⟨7, 9, 1, 2, 6⟩, ⟨3, 0, 5, 5⟩⟩], 6⟩, ⟨none, 2000000000⟩] _ _ rfl rfl

end LoggedTracker

end KWatch
