import KWatch.Tracker.Aggregation
import KWatch.Tracker.Sources

/-! # The last activity of a source

Two feeds write the last activity of a source. An event only moves it forward, but a snapshot
overwrites it with the last time that a live TCP entry of the source was seen. It is the latest
activity shown so far exactly as long as no snapshot is behind what was shown before it.
-/

namespace KWatch

/-- What the tracker is fed with: sampled events, and snapshots of the flow map. -/
inductive Feed where
  | event (e : KwatchEvent)
  | snapshot (entries : List FlowMapEntry) (now : UInt64)
  deriving DecidableEq, Repr

/-- The latest of some times. -/
def IsLatest (ts : List UInt64) (t : UInt64) : Prop := t ∈ ts ∧ ∀ t' ∈ ts, t' ≤ t

instance (ts : List UInt64) (t : UInt64) : Decidable (IsLatest ts t) :=
  inferInstanceAs (Decidable (_ ∧ _))

theorem isLatest_singleton (t : UInt64) : IsLatest [t] t := by
  constructor
  · exact List.mem_singleton.mpr rfl
  · intro t' ht
    rw [List.mem_singleton.mp ht]
    exact UInt64.le_refl t

/-- A later time takes over, an earlier one changes nothing. -/
theorem IsLatest.append {ts : List UInt64} {t : UInt64} (h : IsLatest ts t) (u : UInt64) :
    IsLatest (ts ++ [u]) (if t < u then u else t) := by
  obtain ⟨hm, hle⟩ := h
  split
  · next hlt =>
    constructor
    · simp
    · intro t' ht
      rcases List.mem_append.mp ht with ht | ht
      · exact UInt64.le_of_lt (UInt64.lt_of_le_of_lt (hle t' ht) hlt)
      · rw [List.mem_singleton.mp ht]
        exact UInt64.le_refl u
  · next hge =>
    constructor
    · exact List.mem_append_left _ hm
    · intro t' ht
      rcases List.mem_append.mp ht with ht | ht
      · exact hle t' ht
      · rw [List.mem_singleton.mp ht]
        exact UInt64.not_lt.mp hge

/-- The latest of two groups of times is the latest of the second if that one is not behind. -/
theorem isLatest_append_iff {ts us : List UInt64} {u : UInt64} (hu : IsLatest us u) :
    IsLatest (ts ++ us) u ↔ ∀ t ∈ ts, t ≤ u := by
  constructor
  · intro h t ht
    exact h.2 t (List.mem_append_left _ ht)
  · intro h
    constructor
    · exact List.mem_append_right _ hu.1
    · intro t ht
      rcases List.mem_append.mp ht with ht | ht
      · exact h t ht
      · exact hu.2 t ht

namespace FlowTracker

def feed (t : FlowTracker) : Feed → FlowTracker
  | .event e => t.processEvent e
  | .snapshot entries now => t.processFlowSnapshot entries now

/-- The times of activity of a source that one feed shows. -/
def shows (window : UInt64) (ip : UInt32) : Feed → List UInt64
  | .event e => if ip = e.srcIp then [e.tsNs] else []
  | .snapshot entries now => (liveEntries window now entries ip).map fun e => e.stats.lastSeenNs

/-- The times of activity of a source that were shown. -/
def activity (window : UInt64) (ip : UInt32) (feeds : List Feed) : List UInt64 :=
  feeds.flatMap (shows window ip)

/-- At every moment the last activity of a tracked source is the latest one shown so far, and
the next feed does not take it back. -/
def TracksActivity (t : FlowTracker) (feeds : List Feed) : Prop :=
  ∀ past, past <+: feeds → ∀ ip s, (past.foldl feed t).ipStats.get? ip = some s →
    IsLatest (activity t.synWindowNs ip past) s.lastEventNs ∧
      ∀ f, past ++ [f] <+: feeds → ∃ s', ((past ++ [f]).foldl feed t).ipStats.get? ip = some s' ∧
        s.lastEventNs ≤ s'.lastEventNs

/-- No snapshot is behind: of each source with a live entry in it, one is last seen at or after
every activity shown before. -/
def NoLag (window : UInt64) (feeds : List Feed) : Prop :=
  ∀ past entries now, past ++ [.snapshot entries now] <+: feeds → ∀ ip,
    liveEntries window now entries ip ≠ [] → ∀ t ∈ activity window ip past,
      ∃ e ∈ liveEntries window now entries ip, t ≤ e.stats.lastSeenNs

/-! ### One feed -/

variable {t : FlowTracker} {s : IpStats} {ip : UInt32} {past feeds : List Feed}

theorem activity_append (window : UInt64) (ip : UInt32) (past : List Feed) (f : Feed) :
    activity window ip (past ++ [f]) = activity window ip past ++ shows window ip f := by
  simp [activity]

/-- An aggregate was last seen when the latest of its entries was. -/
theorem mergeAll_latest {es : List FlowMapEntry} {g : FlowAggregate} (h : mergeAll es = some g) :
    IsLatest (es.map fun e => e.stats.lastSeenNs) g.lastSeenNs := by
  obtain ⟨⟨e, he, hlast⟩, hle⟩ := mergeAll_lastSeen h
  constructor
  · rw [hlast]
    exact List.mem_map_of_mem he
  · intro t ht
    obtain ⟨e', he', rfl⟩ := List.mem_map.mp ht
    exact UInt64.le_iff_toNat_le.mpr (hle e' he')

/-- What the table says about a source after its activity at the given times was shown. -/
def Records (ts : List UInt64) (o : Option IpStats) : Prop :=
  (o = none → ts = []) ∧ ∀ s, o = some s → IsLatest ts s.lastEventNs

theorem Records.event {ts : List UInt64} {o : Option IpStats} (h : Records ts o) (e : KwatchEvent) :
    Records (ts ++ [e.tsNs]) (some (noteEvent e (o.getD {}))) := by
  constructor
  · rintro ⟨⟩
  · rintro s ⟨⟩
    rw [noteEvent_lastEventNs]
    cases o with
    | some s => exact (h.2 s rfl).append _
    | none =>
      have h0 : (if (0 : UInt64) < e.tsNs then e.tsNs else 0) = e.tsNs := by
        split
        · rfl
        · next hz =>
          exact (UInt64.le_antisymm (UInt64.not_lt.mp hz) (UInt64.zero_le)).symm
      rw [h.1 rfl, List.nil_append]
      show IsLatest _ (if (0 : UInt64) < e.tsNs then e.tsNs else 0)
      rw [h0]
      exact isLatest_singleton _

/-- A snapshot with live entries of a source overwrites its last activity. -/
theorem get?_snapshot_of_live {entries : List FlowMapEntry} (now : UInt64)
    (hne : liveEntries t.synWindowNs now entries ip ≠ []) :
    ∃ s, (t.processFlowSnapshot entries now).ipStats.get? ip = some s ∧
      IsLatest ((liveEntries t.synWindowNs now entries ip).map fun e => e.stats.lastSeenNs)
        s.lastEventNs := by
  rw [processFlowSnapshot_get?]
  cases hm : mergeAll (liveEntries t.synWindowNs now entries ip) with
  | none => exact absurd (mergeAll_eq_none_iff.mp hm) hne
  | some g => exact ⟨_, rfl, mergeAll_latest hm⟩

/-- Without live entries of a source a snapshot leaves its last activity alone. -/
theorem get?_snapshot_of_not_live {entries : List FlowMapEntry} (now : UInt64)
    (hnil : liveEntries t.synWindowNs now entries ip = []) :
    ((t.processFlowSnapshot entries now).ipStats.get? ip).map IpStats.lastEventNs =
      (t.ipStats.get? ip).map IpStats.lastEventNs := by
  rw [processFlowSnapshot_get?, mergeAll_eq_none_iff.mpr hnil, nextStats, Option.map_map]
  congr 1
  ext s : 1
  exact (resetStale_keeps ..).2.2.1

/-- A tracked source stays tracked. -/
theorem get?_feed_isSome (h : (t.ipStats.get? ip).isSome) (f : Feed) :
    ((t.feed f).ipStats.get? ip).isSome := by
  cases f with
  | event e =>
    rw [feed, processEvent_get?]
    split
    · rfl
    · exact h
  | snapshot entries now =>
    by_cases hnil : liveEntries t.synWindowNs now entries ip = []
    · have hmap := get?_snapshot_of_not_live now hnil
      rw [feed, ← Option.isSome_map (f := IpStats.lastEventNs), hmap, Option.isSome_map]
      exact h
    · obtain ⟨s, hs, -⟩ := get?_snapshot_of_live now hnil
      rw [feed, hs]
      rfl

/-- A feed keeps the records, if it is not a snapshot that is behind. -/
theorem records_feed {ts : List UInt64} (h : Records ts (t.ipStats.get? ip)) (f : Feed)
    (hlag : ∀ entries now, f = .snapshot entries now → liveEntries t.synWindowNs now entries ip ≠ [] →
      ∀ u ∈ ts, ∃ e ∈ liveEntries t.synWindowNs now entries ip, u ≤ e.stats.lastSeenNs) :
    Records (ts ++ shows t.synWindowNs ip f) ((t.feed f).ipStats.get? ip) := by
  cases f with
  | event e =>
    rw [feed, processEvent_get?, shows]
    split
    · exact h.event e
    · rwa [List.append_nil]
  | snapshot entries now =>
    rw [feed, shows]
    by_cases hnil : liveEntries t.synWindowNs now entries ip = []
    · have hmap := get?_snapshot_of_not_live now hnil
      rw [hnil, List.map_nil, List.append_nil]
      constructor
      · intro hn
        rw [hn, Option.map_none, eq_comm, Option.map_eq_none_iff] at hmap
        exact h.1 hmap
      · intro s hs
        rw [hs, Option.map_some, eq_comm, Option.map_eq_some_iff] at hmap
        obtain ⟨s₀, hs₀, he⟩ := hmap
        rw [← he]
        exact h.2 s₀ hs₀
    · obtain ⟨s, hs, hl⟩ := get?_snapshot_of_live now hnil
      rw [hs]
      constructor
      · rintro ⟨⟩
      · rintro s ⟨⟩
        apply (isLatest_append_iff hl).mpr
        intro u hu
        obtain ⟨e, he, hle⟩ := hlag entries now rfl hnil u hu
        exact UInt64.le_trans hle (hl.2 _ (List.mem_map_of_mem he))

/-! ### All feeds -/

theorem foldl_feed_append (t : FlowTracker) (past : List Feed) (f : Feed) :
    (past ++ [f]).foldl feed t = (past.foldl feed t).feed f := by
  simp

theorem foldl_feed_window (t : FlowTracker) (feeds : List Feed) :
    (feeds.foldl feed t).synWindowNs = t.synWindowNs := by
  induction feeds using List.reverseRecOn with
  | nil => rfl
  | append_singleton past f ih =>
    rw [foldl_feed_append, ← ih]
    cases f <;> rfl

theorem records_of_noLag (hempty : t.ipStats = .empty) (hlag : NoLag t.synWindowNs feeds)
    (hp : past <+: feeds) (ip : UInt32) :
    Records (activity t.synWindowNs ip past) ((past.foldl feed t).ipStats.get? ip) := by
  induction past using List.reverseRecOn with
  | nil =>
    rw [List.foldl_nil, hempty]
    constructor
    · intro _
      rfl
    · rintro s ⟨⟩
  | append_singleton past f ih =>
    have hw := foldl_feed_window t past
    rw [foldl_feed_append, activity_append, ← hw]
    apply records_feed
    · rw [hw]
      exact ih ((List.prefix_append past [f]).trans hp)
    · rintro entries now rfl
      rw [hw]
      exact hlag past entries now hp ip

/-- The last activity of every tracked source is the latest one shown so far, and never goes back,
exactly if no snapshot is behind what was shown before it. -/
theorem tracksActivity_iff (threshold window : UInt32) (autoBlock : Bool) (ttl : UInt32)
    (feeds : List Feed) : (create threshold window autoBlock ttl).TracksActivity feeds ↔
      NoLag (window.toUInt64 * 1000000000) feeds := by
  constructor
  · intro h past entries now hp ip hne u hu
    have hw := foldl_feed_window (create threshold window autoBlock ttl) past
    have hlive : liveEntries (past.foldl feed (create threshold window autoBlock ttl)).synWindowNs
        now entries ip ≠ [] := by
      rw [hw]
      exact hne
    obtain ⟨s, hs, hl⟩ := get?_snapshot_of_live now hlive
    rw [hw] at hl
    have hlast := (h _ hp ip s (by rw [foldl_feed_append]; exact hs)).1
    rw [activity_append] at hlast
    obtain ⟨e, he, hlatest⟩ := List.mem_map.mp hl.1
    exact ⟨e, he, hlatest ▸ hlast.2 u (List.mem_append_left _ hu)⟩
  · intro hlag past hp ip s hs
    have hrec := fun past (hp : past <+: feeds) =>
      records_of_noLag (t := create threshold window autoBlock ttl) rfl hlag hp ip
    have hlatest := (hrec past hp).2 s hs
    refine ⟨hlatest, fun f hf => ?_⟩
    have hget : ((past.foldl feed (create threshold window autoBlock ttl)).ipStats.get? ip).isSome :=
      Option.isSome_of_eq_some hs
    have hsome := get?_feed_isSome hget f
    rw [← foldl_feed_append] at hsome
    obtain ⟨s', hs'⟩ := Option.isSome_iff_exists.mp hsome
    have hlatest' := (hrec _ hf).2 s' hs'
    rw [activity_append] at hlatest'
    exact ⟨s', hs', hlatest'.2 _ (List.mem_append_left _ hlatest.1)⟩

/-- A sampled UDP packet, and a snapshot with a TCP flow of its source that was last seen before. -/
def laggingFeeds : List Feed :=
  [.event ⟨100, 7, 9, 1, 2, 17, 0, 64, 0, 0, 0⟩,
    .snapshot [⟨⟨7, 9, 1, 2, 6⟩, ⟨1, 1, 50, 50⟩⟩] 110]

/-- The snapshot takes the last activity of the source back from 100 to 50. -/
theorem activity_goes_back : ¬(create 1 1 true 1).TracksActivity laggingFeeds := by
  intro h
  have hget : (laggingFeeds.foldl feed (create 1 1 true 1)).ipStats.get? 7 =
      some ⟨1, 1, 50, 0, 1, false, false, 64⟩ := rfl
  have hlast := (h _ List.prefix_rfl 7 _ hget).1
  have hshown : (100 : UInt64) ∈ activity (create 1 1 true 1).synWindowNs 7 laggingFeeds := by
    simp [laggingFeeds, activity, shows]
  exact absurd (hlast.2 100 hshown) (by decide)

end FlowTracker

end KWatch
