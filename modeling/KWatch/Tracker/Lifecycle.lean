import KWatch.Tracker.Blocks

/-! # Automatic blocks over whole runs

A log records the addresses every call hands out. Along any run the addresses handed out for
blocking and not yet released are the blocked sources of the tracker, with the time of the call
that blocked them; eviction and snapshots leave them alone until their time to live has passed.
-/

namespace KWatch

/-- A call of the tracker's interface. -/
inductive TrackerCall where
  | processEvent (e : KwatchEvent)
  | processFlowSnapshot (entries : List FlowMapEntry) (now : UInt64)
  | tickAndGetBlocks (now : UInt64)
  | getExpiredBlocks (now : UInt64)

/-- The time a call is given, if any. -/
def TrackerCall.time : TrackerCall → UInt64
  | .processEvent _ => 0
  | .processFlowSnapshot _ now => now
  | .tickAndGetBlocks now => now
  | .getExpiredBlocks now => now

/-- The addresses one call returned, with the time of their blocks or none for a release. -/
structure LogEntry where
  ips : List UInt32
  start : Option UInt64
  deriving DecidableEq, Repr

/-- A tracker with the log of what its calls returned. -/
structure LoggedTracker where
  tracker : FlowTracker
  log : List LogEntry

namespace LoggedTracker

def call (s : LoggedTracker) : TrackerCall → LoggedTracker
  | .processEvent e => { s with tracker := s.tracker.processEvent e }
  | .processFlowSnapshot entries now =>
    { s with tracker := s.tracker.processFlowSnapshot entries now }
  | .tickAndGetBlocks now =>
    let r := s.tracker.tickAndGetBlocks now
    ⟨r.1, s.log ++ [⟨r.2, some now⟩]⟩
  | .getExpiredBlocks now =>
    let r := s.tracker.getExpiredBlocks now
    ⟨r.1, s.log ++ [⟨r.2, none⟩]⟩

def run (t : FlowTracker) (calls : List TrackerCall) : LoggedTracker := calls.foldl call ⟨t, []⟩

theorem run_append (t : FlowTracker) (past : List TrackerCall) (c : TrackerCall) :
    run t (past ++ [c]) = (run t past).call c := by
  simp [run]

end LoggedTracker

/-- The effect of a log entry on the outstanding block of an address. -/
def LogEntry.outstanding (ip : UInt32) (b : Option UInt64) (e : LogEntry) : Option UInt64 :=
  if ip ∈ e.ips then e.start else b

/-- The time of the block of an address that was returned and not released since. -/
def outstanding (log : List LogEntry) (ip : UInt32) : Option UInt64 :=
  log.foldl (LogEntry.outstanding ip) none

/-- One mark for each time an address occurs in the log, true where it was blocked. -/
def marks (log : List LogEntry) (ip : UInt32) : List Bool :=
  log.flatMap fun e => List.replicate (e.ips.count ip) e.start.isSome

namespace LoggedTracker

open FlowTracker

/-- What holds between a tracker and the log of its calls. -/
structure Consistent (autoBlock : Bool) (ttl : UInt32) (s : LoggedTracker) : Prop where
  autoBlock_eq : s.tracker.autoBlockEnabled = autoBlock
  ttl_eq : s.tracker.autoBlockTtlNs = ttl.toUInt64 * 1000000000
  blockStart_eq : ∀ ip, s.tracker.blockStart ip = outstanding s.log ip
  flagged : s.tracker.BlockedFlagged
  early : ∀ ip b, outstanding s.log ip = some b → b.toNat < 2 ^ 63
  nodup : ∀ e ∈ s.log, e.ips.Nodup
  alternate : ∀ ip, (false :: marks s.log ip).IsChain (· ≠ ·)
  last : ∀ ip, (false :: marks s.log ip).getLast? = some (outstanding s.log ip).isSome
  disabled : autoBlock = false → ∀ e ∈ s.log, e.ips = []

theorem outstanding_append (log : List LogEntry) (e : LogEntry) (ip : UInt32) :
    outstanding (log ++ [e]) ip = e.outstanding ip (outstanding log ip) := by
  simp [outstanding]

/-- A duplicate-free list of addresses adds at most one mark. -/
theorem marks_append {log : List LogEntry} {e : LogEntry} (hn : e.ips.Nodup) (ip : UInt32) :
    marks (log ++ [e]) ip = marks log ip ++ if ip ∈ e.ips then [e.start.isSome] else [] := by
  rw [marks, List.flatMap_append, List.flatMap_singleton]
  split
  · next h => rw [List.count_eq_one_of_mem hn h]; rfl
  · next h => rw [List.count_eq_zero_of_not_mem h]; rfl

/-- A log grows consistently when each address it names changes its state. -/
theorem alternate_append {log : List LogEntry} {e : LogEntry} {ip : UInt32} (hn : e.ips.Nodup)
    (ha : (false :: marks log ip).IsChain (· ≠ ·))
    (hl : (false :: marks log ip).getLast? = some (outstanding log ip).isSome)
    (hc : ip ∈ e.ips → e.start.isSome ≠ (outstanding log ip).isSome) :
    (false :: marks (log ++ [e]) ip).IsChain (· ≠ ·) ∧
      (false :: marks (log ++ [e]) ip).getLast? =
        some (outstanding (log ++ [e]) ip).isSome := by
  rw [marks_append hn, outstanding_append, LogEntry.outstanding]
  by_cases hm : ip ∈ e.ips
  · rw [if_pos hm, if_pos hm, ← List.cons_append]
    refine ⟨List.isChain_append.mpr ⟨ha, List.isChain_singleton _, ?_⟩, List.getLast?_concat⟩
    rw [hl]
    rintro x ⟨⟩ y ⟨⟩
    exact (hc hm).symm
  · rw [if_neg hm, if_neg hm, List.append_nil]
    exact ⟨ha, hl⟩

variable {autoBlock : Bool} {ttl : UInt32} {s : LoggedTracker}

/-- A call that returns nothing and keeps every block. -/
theorem Consistent.silent (h : s.Consistent autoBlock ttl) {t : FlowTracker}
    (hk : ∀ ip, KeepsBlock (s.tracker.ipStats.get? ip) (t.ipStats.get? ip))
    (ha : t.autoBlockEnabled = s.tracker.autoBlockEnabled)
    (ht : t.autoBlockTtlNs = s.tracker.autoBlockTtlNs) :
    (⟨t, s.log⟩ : LoggedTracker).Consistent autoBlock ttl :=
  { h with
    autoBlock_eq := ha.trans h.autoBlock_eq
    ttl_eq := ht.trans h.ttl_eq
    blockStart_eq := fun ip => (hk ip).start.trans (h.blockStart_eq ip)
    flagged := KeepsBlock.blockedFlagged h.flagged hk }

/-- A call that returns addresses: it changes their blocks as its log entry says, and each of them
only from one state to the other. -/
theorem Consistent.answer (h : s.Consistent autoBlock ttl) {t : FlowTracker} {e : LogEntry}
    (hcfg : t.autoBlockEnabled = s.tracker.autoBlockEnabled ∧
      t.autoBlockTtlNs = s.tracker.autoBlockTtlNs)
    (hstart : ∀ ip, t.blockStart ip = e.outstanding ip (s.tracker.blockStart ip))
    (hflag : t.BlockedFlagged) (hearly : ∀ b, e.start = some b → b.toNat < 2 ^ 63)
    (hnodup : e.ips.Nodup) (hturn : ∀ ip ∈ e.ips, e.start.isSome ≠ (outstanding s.log ip).isSome)
    (hoff : autoBlock = false → e.ips = []) :
    (⟨t, s.log ++ [e]⟩ : LoggedTracker).Consistent autoBlock ttl := by
  have halt := fun ip => alternate_append hnodup (h.alternate ip) (h.last ip) (hturn ip)
  exact
    { autoBlock_eq := hcfg.1.trans h.autoBlock_eq
      ttl_eq := hcfg.2.trans h.ttl_eq
      blockStart_eq := fun ip => by
        rw [outstanding_append, ← h.blockStart_eq]
        exact hstart ip
      flagged := hflag
      early := fun ip b hb => by
        rw [outstanding_append, LogEntry.outstanding] at hb
        split at hb
        · exact hearly b hb
        · exact h.early ip b hb
      nodup := fun e' he => by
        rcases List.mem_append.mp he with he | he
        · exact h.nodup e' he
        · rw [List.mem_singleton.mp he]
          exact hnodup
      alternate := fun ip => (halt ip).1
      last := fun ip => (halt ip).2
      disabled := fun hd e' he => by
        rcases List.mem_append.mp he with he | he
        · exact h.disabled hd e' he
        · rw [List.mem_singleton.mp he]
          exact hoff hd }

theorem Consistent.tick (h : s.Consistent autoBlock ttl) {now : UInt64} (hn : now.toNat < 2 ^ 63) :
    (s.call (.tickAndGetBlocks now)).Consistent autoBlock ttl := by
  have hs := tick_blockStart now s.tracker
  apply h.answer
  · exact ⟨rfl, rfl⟩
  · exact fun ip => (hs ip).1
  · exact tick_blockedFlagged h.flagged now
  · rintro b ⟨⟩
    exact hn
  · exact tick_blocks_nodup now s.tracker
  · intro ip hm
    have hfresh : outstanding s.log ip = none := (h.blockStart_eq ip).symm.trans ((hs ip).2 hm)
    rw [hfresh]
    simp
  · intro hoff
    rw [List.eq_nil_iff_forall_not_mem]
    intro ip (hm : ip ∈ (tickAndGetBlocks now s.tracker).2)
    obtain ⟨st, -, hst⟩ := mem_tick_blocks.mp hm
    simp [shouldBlock, h.autoBlock_eq, hoff] at hst

theorem outstanding_of_disabled (hd : ∀ e ∈ s.log, e.ips = []) (ip : UInt32) :
    outstanding s.log ip = none := by
  suffices hl : ∀ log : List LogEntry, (∀ e ∈ log, e.ips = []) → outstanding log ip = none from
    hl s.log hd
  intro log hd
  induction log using List.reverseRecOn with
  | nil => rfl
  | append_singleton log e ih =>
    have he : e.ips = [] := hd e (by simp)
    rw [outstanding_append, ih fun e' he' => hd e' (List.mem_append_left _ he')]
    simp [LogEntry.outstanding, he]

theorem Consistent.expired (h : s.Consistent autoBlock ttl) (now : UInt64) :
    (s.call (.getExpiredBlocks now)).Consistent autoBlock ttl := by
  have hheld : ∀ ip ∈ (getExpiredBlocks now s.tracker).2, ∃ b, outstanding s.log ip = some b := by
    intro ip hm
    obtain ⟨b, hb, -⟩ := mem_expired_iff.mp hm
    exact ⟨b, (h.blockStart_eq ip).symm.trans hb⟩
  apply h.answer
  · exact ⟨rfl, rfl⟩
  · exact expired_blockStart now s.tracker
  · exact expired_blockedFlagged h.flagged now
  · rintro b ⟨⟩
  · exact expired_nodup now s.tracker
  · intro ip hm
    obtain ⟨b, hb⟩ := hheld ip hm
    rw [hb]
    simp
  · intro hoff
    rw [List.eq_nil_iff_forall_not_mem]
    intro ip hm
    obtain ⟨b, hb⟩ := hheld ip hm
    rw [outstanding_of_disabled (h.disabled hoff)] at hb
    cases hb

theorem Consistent.call (h : s.Consistent autoBlock ttl) (c : TrackerCall)
    (hc : c.time.toNat < 2 ^ 63) : (s.call c).Consistent autoBlock ttl := by
  cases c with
  | processEvent e => exact h.silent (processEvent_keepsBlock e s.tracker) rfl rfl
  | processFlowSnapshot entries now =>
    refine h.silent (fun ip => ?_) rfl rfl
    rw [processFlowSnapshot_get?]
    exact nextStats_keepsBlock ..
  | tickAndGetBlocks now => exact h.tick hc
  | getExpiredBlocks now => exact h.expired now

theorem consistent_run (threshold window : UInt32) (autoBlock : Bool) (ttl : UInt32)
    {calls : List TrackerCall} (hc : ∀ c ∈ calls, c.time.toNat < 2 ^ 63) :
    (run (.create threshold window autoBlock ttl) calls).Consistent autoBlock ttl := by
  induction calls using List.reverseRecOn with
  | nil =>
    exact
      { autoBlock_eq := rfl
        ttl_eq := rfl
        blockStart_eq := fun _ => rfl
        flagged := fun _ _ h => by cases h
        early := fun _ _ h => by cases h
        nodup := fun _ h => by cases h
        alternate := fun _ => List.isChain_singleton _
        last := fun _ => rfl
        disabled := fun _ _ h => by cases h }
  | append_singleton calls c ih =>
    rw [run_append]
    exact (ih fun c' h' => hc c' (List.mem_append_left _ h')).call c (hc c (by simp))

/-! ### The life cycle -/

/-- The addresses a call releases. -/
def released (s : LoggedTracker) : TrackerCall → List UInt32
  | .getExpiredBlocks now => (getExpiredBlocks now s.tracker).2
  | _ => []

/-- The life cycle of automatic blocks, as a state and its log show it. -/
structure Lifecycle (autoBlock : Bool) (ttl : UInt32) (s : LoggedTracker) : Prop where
  blocked_iff : ∀ ip, s.tracker.Blocked ip ↔ ∃ b, outstanding s.log ip = some b
  alternate : ∀ ip, (false :: marks s.log ip).IsChain (· ≠ ·)
  nodup : ∀ e ∈ s.log, e.ips.Nodup
  flagged : s.tracker.BlockedFlagged
  kept : ∀ ip st, s.tracker.ipStats.get? ip = some st → st.isBlocked = true →
    ∀ c, ip ∉ s.released c → ∃ st', (s.call c).tracker.ipStats.get? ip = some st' ∧
      st'.isBlocked = true ∧ st'.isFlagged = true ∧ st'.blockStartNs = st.blockStartNs
  unreset : ∀ ip st, s.tracker.ipStats.get? ip = some st → st.isBlocked = true →
    ∀ entries now, liveEntries s.tracker.synWindowNs now entries ip = [] →
      (processFlowSnapshot entries now s.tracker).ipStats.get? ip = some st
  expired_iff : ∀ now : UInt64, now.toNat < 2 ^ 63 → ∀ ip,
    ip ∈ (getExpiredBlocks now s.tracker).2 ↔
      ∃ b, outstanding s.log ip = some b ∧ b.toNat + ttl.toNat * 1000000000 ≤ now.toNat
  disabled : autoBlock = false → ∀ e ∈ s.log, e.ips = []

theorem call_blockStart (s : LoggedTracker) (c : TrackerCall) {ip : UInt32} {b : UInt64}
    (hb : s.tracker.blockStart ip = some b) (hr : ip ∉ s.released c) :
    (s.call c).tracker.blockStart ip = some b := by
  cases c with
  | processEvent e => exact ((processEvent_keepsBlock e s.tracker ip).start).trans hb
  | processFlowSnapshot entries now =>
    have hk := (nextStats_keepsBlock s.tracker now (s.tracker.ipStats.get? ip)
      (mergeAll (liveEntries s.tracker.synWindowNs now entries ip))).start
    rw [← processFlowSnapshot_get?] at hk
    exact hk.trans hb
  | tickAndGetBlocks now =>
    obtain ⟨hs, hfresh⟩ := tick_blockStart now s.tracker ip
    have hm : ip ∉ (tickAndGetBlocks now s.tracker).2 := fun hm => by
      rw [hfresh hm] at hb
      cases hb
    rw [if_neg hm] at hs
    exact hs.trans hb
  | getExpiredBlocks now =>
    have hm : ip ∉ (getExpiredBlocks now s.tracker).2 := hr
    exact (expired_blockStart now s.tracker ip).trans (by rwa [if_neg hm])

/-- Adding a time to live of whole seconds to an early time does not overflow. -/
theorem toNat_add_ttl {b : UInt64} (hb : b.toNat < 2 ^ 63) (ttl : UInt32) :
    (b + ttl.toUInt64 * 1000000000).toNat = b.toNat + ttl.toNat * 1000000000 := by
  have ht := ttl.toNat_lt
  rw [UInt64.toNat_add, toNat_seconds]
  omega

theorem Consistent.lifecycle (h : s.Consistent autoBlock ttl)
    (hk : ∀ c, (s.call c).tracker.BlockedFlagged) : s.Lifecycle autoBlock ttl :=
  { blocked_iff := fun ip => by rw [blocked_iff_blockStart, h.blockStart_eq]
    alternate := h.alternate
    nodup := h.nodup
    flagged := h.flagged
    kept := fun ip st hst hb c hr => by
      have hs : s.tracker.blockStart ip = some st.blockStartNs := by simp [blockStart, hst, hb]
      have hs' := call_blockStart s c hs hr
      simp only [blockStart, Option.bind_eq_some_iff, Option.ite_none_right_eq_some,
        Option.some.injEq] at hs'
      obtain ⟨st', hst', hb', he⟩ := hs'
      exact ⟨st', hst', hb', hk c ip st' hst' hb', he⟩
    unreset := fun ip st hst hb entries now hl => processFlowSnapshot_blocked_unchanged hst hb hl
    expired_iff := fun now hn ip => by
      simp only [mem_expired_iff, h.blockStart_eq, h.ttl_eq]
      refine exists_congr fun b => and_congr_right fun hb => ?_
      rw [UInt64.le_iff_toNat_le, toNat_add_ttl (h.early ip b hb)]
    disabled := h.disabled }

/-- Blocks and releases of every run whose times are below `2 ^ 63`. -/
theorem run_lifecycle (threshold window : UInt32) (autoBlock : Bool) (ttl : UInt32)
    (calls : List TrackerCall) (hc : ∀ c ∈ calls, c.time.toNat < 2 ^ 63) :
    (run (.create threshold window autoBlock ttl) calls).Lifecycle autoBlock ttl := by
  have h := consistent_run threshold window autoBlock ttl hc
  apply h.lifecycle
  intro c
  cases c with
  | processEvent e => exact KeepsBlock.blockedFlagged h.flagged (processEvent_keepsBlock e _)
  | processFlowSnapshot entries now =>
    apply KeepsBlock.blockedFlagged h.flagged
    intro ip
    rw [call, processFlowSnapshot_get?]
    exact nextStats_keepsBlock ..
  | tickAndGetBlocks now => exact tick_blockedFlagged h.flagged now
  | getExpiredBlocks now => exact expired_blockedFlagged h.flagged now

/-- A flood is blocked by the tick after its snapshot and released a second later. -/
theorem run_lifecycle_flood :
    (run (.create 1 1 true 1) [
      .processFlowSnapshot [⟨⟨7, 9, 1, 2, 6⟩, ⟨3, 0, 5, 5⟩⟩] 6, .tickAndGetBlocks 7,
      .getExpiredBlocks 1000000007]).Lifecycle true 1 :=
  run_lifecycle 1 1 true 1 _ (by decide)

end LoggedTracker

end KWatch
