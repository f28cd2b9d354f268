import KWatch.Library.Sums
import KWatch.Top.Shown
import KWatch.Xdp.Counters

/-! # The graph of the dashboard

Every tick adds up the packet counters while they grow. A sample is twice the difference of two such
totals, so the samples tell of every packet once, up to those that are counted during a walk.
-/

namespace KWatch

/-! ### Samples -/

/-- The samples of the totals that the ticks have read. There is none before a total is positive. -/
def rates : List UInt64 → List UInt64
  | t :: t' :: ts => if t = 0 then rates (t' :: ts) else (t' - t) * 2 :: rates (t' :: ts)
  | _ => []

theorem rates_snoc (t : UInt64) (ts : List UInt64) (t' : UInt64) :
    rates (t :: ts ++ [t']) = rates (t :: ts) ++
      if (t :: ts).getLastD 0 = 0 then [] else [(t' - (t :: ts).getLastD 0) * 2] := by
  induction ts generalizing t with
  | nil =>
    simp only [List.cons_append, List.nil_append, rates, List.getLastD_cons, List.getLastD_nil]
  | cons u ts ih =>
    have hlast : (t :: u :: ts).getLastD 0 = (u :: ts).getLastD 0 := by simp
    rw [hlast, List.cons_append, List.cons_append, rates, ← List.cons_append, ih, rates]
    split_ifs <;> simp

/-- The first total of any packets. -/
def firstTotal (ts : List UInt64) : UInt64 := (ts.find? (· ≠ 0)).getD 0

/-- The classes that the totals are about: those with a counter, but for the dropped packets. -/
def passedKeys (ks : List UInt32) : List UInt32 := (countAll ks).keys.filter (· ≠ 0xFFFF)

/-- The packets that have been counted in one of these classes. -/
def passed (ks : List UInt32) : ℕ := ks.countP (· ∈ passedKeys ks)

variable {begun ks : List UInt32} {k : UInt32}

theorem keys_incCount (k : UInt32) (t : Table UInt32 UInt64) : t.keys ⊆ (incCount k t).keys := by
  intro k' hk'
  unfold incCount
  split
  · exact Table.mem_keys_set.mpr (.inr hk')
  · next hk =>
    cases hp : t.putNew pktCountsMaxEntries k 1 with
    | none => exact hk'
    | some u =>
      obtain ⟨-, -, rfl⟩ := Table.putNew_eq_some_iff.mp hp
      exact Table.mem_keys_set.mpr (.inr hk')

/-- No counter is ever given up. -/
theorem keys_countAll (h : begun <+: ks) : (countAll begun).keys ⊆ (countAll ks).keys := by
  obtain ⟨more, rfl⟩ := h
  induction more using List.reverseRecOn with
  | nil => rw [List.append_nil]; exact List.Subset.refl _
  | append_singleton more k ih =>
    rw [← List.append_assoc, countAll_append]
    exact List.Subset.trans ih (keys_incCount k _)

theorem passed_mono (h : begun <+: ks) : passed begun ≤ passed ks := by
  have hkeys : ∀ k ∈ passedKeys begun, k ∈ passedKeys ks := by
    intro k hk
    obtain ⟨hk, hne⟩ := List.mem_filter.mp hk
    exact List.mem_filter.mpr ⟨keys_countAll h hk, hne⟩
  calc passed begun ≤ begun.countP (· ∈ passedKeys ks) :=
        List.countP_mono_left fun k _ hk => by simpa using hkeys k (by simpa using hk)
    _ ≤ passed ks := h.sublist.countP_le

/-- A walk that began after some packets and goes on after more: each value that it has read lies
between the count at its beginning and the count now. -/
structure Walking (begun ks : List UInt32) (reads : List (UInt32 × ℕ)) (w : Walk) : Prop where
  present : w.present = (countAll begun).keys
  visited : w.visited = reads.map Prod.fst
  nodup : w.visited.Nodup
  stored : w.visited ⊆ (countAll ks).keys
  between : ∀ e ∈ reads, begun.count e.1 ≤ e.2 ∧ e.2 ≤ ks.count e.1
  total : protocolTotal w.breakdown =
    UInt64.ofNat ((reads.filter (·.1 ≠ 0xFFFF)).map Prod.snd).sum

theorem walking_start (ks : List UInt32) :
    Walking ks ks [] ⟨(countAll ks).keys, [], {}⟩ :=
  ⟨rfl, rfl, List.nodup_nil, List.nil_subset _, by simp, rfl⟩

theorem Walking.grow {reads : List (UInt32 × ℕ)} {w : Walk} (h : Walking begun ks reads w)
    {ks' : List UInt32} (hgrow : ks <+: ks') : Walking begun ks' reads w where
  present := h.present
  visited := h.visited
  nodup := h.nodup
  stored := List.Subset.trans h.stored (keys_countAll hgrow)
  between := fun e he => ⟨(h.between e he).1,
    (h.between e he).2.trans (hgrow.sublist.count_le e.1)⟩
  total := h.total

theorem protocolTotal_count (b : ProtocolBreakdown) (k : UInt32) (v : UInt64) :
    protocolTotal (b.count (k, v)) =
      protocolTotal b + if k ≠ 0xFFFF then v else 0 := by
  unfold protocolTotal ProtocolBreakdown.count
  split_ifs <;> simp_all <;> ac_rfl

theorem Walking.read {reads : List (UInt32 × ℕ)} {w : Walk} (h : Walking begun ks reads w)
    (hbegun : begun <+: ks) {v : UInt64} (hnew : k ∉ w.visited)
    (hv : (countAll ks).get? k = some v) :
    Walking begun ks (reads ++ [(k, ks.count k)])
      { w with visited := w.visited ++ [k], breakdown := w.breakdown.count (k, v) } := by
  have hvalue : v = UInt64.ofNat (ks.count k) := (counted_countAll ks).value k v hv
  constructor
  · exact h.present
  · simp [h.visited]
  · exact h.nodup.append (List.nodup_singleton k) (by simpa using hnew)
  · exact List.append_subset.mpr ⟨h.stored, by simpa using Table.mem_keys_of_get? hv⟩
  · intro e he
    rcases List.mem_append.mp he with he | he
    · exact h.between e he
    · rw [List.mem_singleton.mp he]
      exact ⟨hbegun.sublist.count_le k, le_rfl⟩
  · rw [protocolTotal_count, h.total, List.filter_append]
    by_cases hk : k = 0xFFFF
    · simp [hk]
    · simp [hk, hvalue, UInt64.ofNat_add]

/-- What a whole walk has added up. -/
theorem Walking.bracket {reads : List (UInt32 × ℕ)} {w : Walk} (h : Walking begun ks reads w)
    (hlt : ks.length < 2 ^ 64) (hall : w.present ⊆ w.visited) :
    passed begun ≤ (protocolTotal w.breakdown).toNat ∧
      (protocolTotal w.breakdown).toNat ≤ passed ks := by
  set counted := reads.filter (·.1 ≠ 0xFFFF)
  have hkeys : counted.map Prod.fst = w.visited.filter (· ≠ 0xFFFF) := by
    rw [h.visited, List.filter_map]
    rfl
  have hn : (counted.map Prod.fst).Nodup := hkeys ▸ h.nodup.filter _
  have hbetween : ∀ e ∈ counted, begun.count e.1 ≤ e.2 ∧ e.2 ≤ ks.count e.1 :=
    fun e he => h.between e (List.mem_of_mem_filter he)
  have hlower : passed begun ≤ (counted.map Prod.snd).sum := by
    calc passed begun ≤ begun.countP (· ∈ counted.map Prod.fst) := by
          refine List.countP_mono_left fun k _ hk => ?_
          obtain ⟨hk, hne⟩ := List.mem_filter.mp (of_decide_eq_true hk)
          rw [decide_eq_true_iff, hkeys]
          exact List.mem_filter.mpr ⟨hall (h.present ▸ hk), hne⟩
      _ = ((counted.map Prod.fst).map begun.count).sum := (Sums.sum_count begun hn).symm
      _ ≤ (counted.map Prod.snd).sum := by
          rw [List.map_map]
          exact List.sum_le_sum fun e he => (hbetween e he).1
  have hupper : (counted.map Prod.snd).sum ≤ passed ks := by
    calc (counted.map Prod.snd).sum ≤ ((counted.map Prod.fst).map ks.count).sum := by
          rw [List.map_map]
          exact List.sum_le_sum fun e he => (hbetween e he).2
      _ = ks.countP (· ∈ counted.map Prod.fst) := Sums.sum_count ks hn
      _ ≤ passed ks := by
          refine List.countP_mono_left fun k _ hk => ?_
          have hk := of_decide_eq_true hk
          rw [hkeys] at hk
          obtain ⟨hk, hne⟩ := List.mem_filter.mp hk
          exact decide_eq_true (List.mem_filter.mpr ⟨h.stored hk, hne⟩)
  have hlen : passed ks ≤ ks.length := List.countP_le_length
  have htotal : protocolTotal w.breakdown = UInt64.ofNat (counted.map Prod.snd).sum := h.total
  rw [htotal, UInt64.toNat_ofNat', Nat.mod_eq_of_lt (by omega)]
  exact ⟨hlower, hupper⟩

/-! ### Runs -/

/-- The total of a tick, with the number of packets that had been counted when its walk began and
when it ended. -/
structure Reading where
  before : ℕ
  total : UInt64
  after : ℕ

def DashboardStep.isEndTick : DashboardStep → Bool
  | .endTick _ _ => true
  | .packet _ | .consume | .beginTick _ | .readCounter _ => false

namespace Dashboard

variable {cfg : KwatchRuntimeConfig} {consumer : RingBuf.Consumer} {d d' : Dashboard}
  {readings : List Reading}

/-- The totals of the ticks, from that of a tick before the first one. -/
def totals (readings : List Reading) : List UInt64 := 0 :: readings.map Reading.total

/-- What the graph rests on. The walk in progress has begun after the last reading. -/
structure Graphed (ks : List UInt32) (readings : List Reading) (d : Dashboard) : Prop where
  counts : d.pipeline.maps.pktCounts = countAll ks
  bracket : ∀ r ∈ readings, r.before ≤ r.total.toNat ∧ r.total.toNat ≤ r.after
  order : readings.Pairwise fun r r' => r.after ≤ r'.before
  walk : ∃ begun, begun <+: ks ∧ (∀ r ∈ readings, r.after ≤ passed begun) ∧
    ∀ w, d.walk = some w → ∃ reads, Walking begun ks reads w
  last : d.lastPktTotal = (totals readings).getLastD 0
  window : d.ppsWin.Holds 60 (rates (totals readings))
  snapshot : d.ppsSnapshot = recent 60 (rates (totals readings))

/-- A packet or a drain, in or between walks. -/
theorem Graphed.grow (h : Graphed ks readings d) {more : List UInt32} {p : Pipeline}
    (hp : p.maps.pktCounts = countAll (ks ++ more))
    (hd : d'.pipeline = p ∧ d'.walk = d.walk ∧ d'.lastPktTotal = d.lastPktTotal ∧
      d'.ppsWin = d.ppsWin ∧ d'.ppsSnapshot = d.ppsSnapshot) :
    Graphed (ks ++ more) readings d' := by
  obtain ⟨hpipeline, hwalk, hlast, hwin, hsnap⟩ := hd
  obtain ⟨begun, hbegun, hpast, hw⟩ := h.walk
  have hmore : ks <+: ks ++ more := List.prefix_append ..
  refine ⟨hpipeline ▸ hp, h.bracket, h.order, ⟨begun, hbegun.trans hmore, hpast, ?_⟩,
    hlast.trans h.last, hwin ▸ h.window, hsnap.trans h.snapshot⟩
  intro w hw'
  obtain ⟨reads, hreads⟩ := hw w (hwalk ▸ hw')
  exact ⟨reads, hreads.grow hmore⟩

/-- The rate of a tick is a sample as soon as a total before was positive. -/
theorem exists_notePps {ts : List UInt64} (hne : ts ≠ [])
    (hlast : d.lastPktTotal = ts.getLastD 0) (hwin : d.ppsWin.Holds 60 (rates ts))
    (total : UInt64) : ∃ d₁, d.notePps total = some d₁ ∧ d₁.pipeline = d.pipeline ∧
      d₁.lastPktTotal = total ∧ d₁.ppsWin.Holds 60 (rates (ts ++ [total])) := by
  obtain ⟨t, ts, rfl⟩ := List.exists_cons_of_ne_nil hne
  rw [rates_snoc, ← hlast]
  by_cases hzero : d.lastPktTotal = 0
  · refine ⟨{ d with currentPps := 0, lastPktTotal := total }, ?_, rfl, rfl, ?_⟩
    · rw [notePps, if_neg (by rw [hzero]; decide)]
    · rwa [if_pos hzero, List.append_nil]
  · obtain ⟨win, hpush, hholds⟩ := hwin.push ((total - d.lastPktTotal) * 2)
    have hpos : 0 < d.lastPktTotal := UInt64.pos_iff_ne_zero.mpr hzero
    refine ⟨{ d with
      currentPps := (total - d.lastPktTotal) * 2
      ppsWin := win
      lastPktTotal := total }, ?_, rfl, rfl, ?_⟩
    · rw [notePps, if_pos hpos]
      exact Option.map_eq_some_iff.mpr ⟨win, hpush, rfl⟩
    · rwa [if_neg hzero]

/-- The next tick goes through, and it adds a reading. -/
theorem Graphed.tick (h : Graphed ks readings d) (hlt : ks.length < 2 ^ 64) {w : Walk}
    (hw : d.walk = some w) (hall : w.present ⊆ w.visited)
    (snapshot : Option (List FlowMapEntry)) (now : UInt64) :
    ∃ r d', d.endTick w.breakdown snapshot now = some d' ∧ Graphed ks (readings ++ [r]) d' := by
  obtain ⟨begun, hbegun, hpast, hwalk⟩ := h.walk
  obtain ⟨reads, hreads⟩ := hwalk w hw
  obtain ⟨hlower, hupper⟩ := hreads.bracket hlt hall
  have hne : totals readings ≠ [] := List.cons_ne_nil _ _
  obtain ⟨d₁, hnote, hpipeline, hlast, hwin⟩ := exists_notePps hne h.last h.window
    (protocolTotal w.breakdown)
  set r : Reading := ⟨passed begun, protocolTotal w.breakdown, passed ks⟩
  have htotals : totals readings ++ [protocolTotal w.breakdown] = totals (readings ++ [r]) := by
    simp [totals, r]
  rw [htotals] at hwin
  set tracker := Top.afterTick now (noteSnapshot snapshot now d₁.tracker) with htracker
  refine ⟨r, { d₁ with
    protocolBreakdown := w.breakdown
    tracker := tracker
    ppsSnapshot := recent 60 (rates (totals (readings ++ [r])))
    threatRows := refreshThreatSnapshot tracker
    walk := none }, ?_, ?_⟩
  · simp only [endTick, hnote, hwin.copySnapshot, htracker, Option.bind_eq_bind, Option.bind_some,
      Option.pure_def]
  · constructor
    · rw [← h.counts, ← hpipeline]
    · intro r' hr'
      rcases List.mem_append.mp hr' with hr' | hr'
      · exact h.bracket r' hr'
      · rw [List.mem_singleton.mp hr']
        exact ⟨hlower, hupper⟩
    · rw [List.pairwise_append]
      refine ⟨h.order, List.pairwise_singleton _ _, fun r' hr' r'' hr'' => ?_⟩
      rw [List.mem_singleton.mp hr'']
      exact hpast r' hr'
    · refine ⟨ks, List.prefix_rfl, fun r' hr' => ?_, by rintro w ⟨⟩⟩
      rcases List.mem_append.mp hr' with hr' | hr'
      · exact (hpast r' hr').trans (passed_mono hbegun)
      · rw [List.mem_singleton.mp hr']
    · rw [← htotals]
      exact hlast.trans (by simp)
    · exact hwin
    · rfl

theorem pktCounts_packet {p p' : Pipeline} {a : Arrival}
    (h : p.step cfg consumer (.packet a) = some p') (hp : p.maps.pktCounts = countAll ks) :
    p'.maps.pktCounts = countAll (ks ++ a.counterClass.toList) := by
  simp only [Pipeline.step, xdpKwatchProg_eq, Option.map_some, Option.some.injEq] at h
  rw [← h, runView_pktCounts]
  have hclass : counterClass a.blacklist (frameView a.frame) = a.counterClass := rfl
  rw [hclass]
  cases a.counterClass with
  | none => rw [Option.toList_none, List.append_nil, ← hp]
  | some k => rw [Option.toList_some, countAll_append, ← hp]

theorem Graphed.step (h : Graphed ks readings d) {st : DashboardStep}
    (hlt : ks.length < 2 ^ 64) (hst : d.step cfg consumer st = some d') :
    ∃ new, new.length = [st].countP DashboardStep.isEndTick ∧
      Graphed (ks ++ classes st.arrival?.toList) (readings ++ new) d' := by
  have hnone : ks ++ classes [] = ks := List.append_nil ks
  cases steps_of_step hst with
  | @packet a p hp =>
    have hclass : classes [a] = a.counterClass.toList := by
      simp only [classes, List.filterMap_cons, List.filterMap_nil]
      cases a.counterClass <;> rfl
    refine ⟨[], rfl, ?_⟩
    rw [List.append_nil, DashboardStep.arrival?, Option.toList_some, hclass]
    exact h.grow (pktCounts_packet hp h.counts) ⟨rfl, rfl, rfl, rfl, rfl⟩
  | @consume p hw hp =>
    have hcounts : p.maps.pktCounts = countAll (ks ++ []) := by
      cases hp
      rw [List.append_nil, ← h.counts]
    refine ⟨[], rfl, ?_⟩
    rw [List.append_nil, DashboardStep.arrival?, Option.toList_none]
    refine h.grow hcounts ?_
    rw [drained, foldl_rbCb]
    exact ⟨rfl, rfl, rfl, rfl, rfl⟩
  | beginTick hw =>
    obtain ⟨begun, hbegun, hpast, -⟩ := h.walk
    refine ⟨[], rfl, ?_⟩
    rw [List.append_nil, DashboardStep.arrival?, Option.toList_none, hnone]
    refine { h with walk := ⟨ks, List.prefix_rfl, ?_, ?_⟩ }
    · exact fun r hr => (hpast r hr).trans (passed_mono hbegun)
    · rintro w ⟨⟩
      rw [h.counts]
      exact ⟨[], walking_start ks⟩
  | readCounter hw hkey hv =>
    obtain ⟨begun, hbegun, hpast, hwalk⟩ := h.walk
    obtain ⟨reads, hreads⟩ := hwalk _ hw
    refine ⟨[], rfl, ?_⟩
    rw [List.append_nil, DashboardStep.arrival?, Option.toList_none, hnone]
    refine { h with walk := ⟨begun, hbegun, hpast, ?_⟩ }
    rintro w ⟨⟩
    rw [h.counts] at hv
    exact ⟨_, hreads.read hbegun hkey hv⟩
  | @endTick snapshot now w d' hw hsub he =>
    obtain ⟨r, d₁, hd₁, hgraph⟩ := h.tick hlt hw hsub snapshot now
    obtain rfl : d₁ = d' := Option.some.inj (hd₁.symm.trans he)
    refine ⟨[r], rfl, ?_⟩
    rw [DashboardStep.arrival?, Option.toList_none, hnone]
    exact hgraph

/-- The graph accounts for the packets. Every tick has read a total between the number of packets
that were counted when its walk began and when it ended, and no two walks overlap. The samples
shown are the last ones of all, and these add up to twice the packets between the first total of any
packets and the last one. With at most 256 classes every packet that is not dropped is counted. The
next tick goes through. -/
structure Accounts (cfg : KwatchRuntimeConfig) (consumer : RingBuf.Consumer) (ks : List UInt32)
    (readings : List Reading) (d : Dashboard) : Prop where
  bracket : ∀ r ∈ readings, r.before ≤ r.total.toNat ∧ r.total.toNat ≤ r.after
  order : readings.Pairwise fun r r' => r.after ≤ r'.before
  now : ∀ r ∈ readings, r.after ≤ passed ks
  counted : ks.toFinset.card ≤ pktCountsMaxEntries → passed ks = ks.countP (· ≠ 0xFFFF)
  graph : d.ppsSnapshot = recent 60 (rates (readings.map Reading.total))
  sum : ((rates (readings.map Reading.total)).map UInt64.toNat).sum =
    2 * (((readings.map Reading.total).getLastD 0).toNat -
      (firstTotal (readings.map Reading.total)).toNat)
  next : ∀ w snapshot now, d.walk = some w → w.present ⊆ w.visited →
    (d.step cfg consumer (.endTick snapshot now)).isSome

/-- A packet and a tick, and another packet before the next tick. -/
def twoTicks : List DashboardStep :=
  onePacketTick ++ [.packet ⟨bareIpv4 1, ⟨1, 1, 0, false, []⟩, .empty⟩, .beginTick false,
    .readCounter 1, .endTick none 6]

end Dashboard

end KWatch
