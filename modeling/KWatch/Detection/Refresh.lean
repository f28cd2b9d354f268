import KWatch.Library.Buckets
import KWatch.Library.Run
import KWatch.Tracker.Basic

/-! # Reading the flow map

`FlowStateSnapshot::refresh` of `src/core/flow_snapshot.h` walks the flow map with the last key as
its cursor, two system calls for each entry. Between any two calls packets insert and update flows
and the map evicts some. An evicted cursor sends the walk back to the first key, and then flows are
read twice.
-/

namespace KWatch

/-- What a refresh does next. -/
inductive RefreshPc
  | getNextKey
  | lookupElem (nextKey : KwatchFlowKey)
  | returned (ok : Bool)
  deriving DecidableEq, Repr

/-- The entries read so far, and the key that the next search starts from. -/
structure FlowStateSnapshot where
  entries : List FlowMapEntry
  lookupKey : Option KwatchFlowKey
  pc : RefreshPc
  deriving DecidableEq, Repr

/-- The flow map, whose hash function is a parameter, with a refresh in progress. -/
structure FlowScan (bucket : KwatchFlowKey → ℕ) where
  flowState : HashTable KwatchFlowKey KwatchFlowStats bucket
  refresh : FlowStateSnapshot

/-- The next call of the refresh, which may fail for a reason other than the end of the map, or a
change of the map by a packet or by the eviction. -/
inductive ScanStep
  | call
  | fault
  | insert (key : KwatchFlowKey) (stats : KwatchFlowStats)
  | update (key : KwatchFlowKey) (stats : KwatchFlowStats)
  | evict (key : KwatchFlowKey)
  deriving DecidableEq, Repr

namespace FlowStateSnapshot

def start : FlowStateSnapshot := ⟨[], none, .getNextKey⟩

/-- The keys read so far. -/
def keys (r : FlowStateSnapshot) : List KwatchFlowKey := r.entries.map FlowMapEntry.key

/-- The key that the search has reached, as long as it goes on. -/
def cursor (r : FlowStateSnapshot) : Option KwatchFlowKey :=
  match r.pc with
  | .getNextKey => r.lookupKey
  | .lookupElem key => some key
  | .returned _ => none

/-- One call of the loop of `refresh`. -/
def step {bucket : KwatchFlowKey → ℕ} (flows : HashTable KwatchFlowKey KwatchFlowStats bucket)
    (r : FlowStateSnapshot) : Option FlowStateSnapshot :=
  match r.pc with
  | .getNextKey =>
    match flows.nextKey r.lookupKey with
    | some key => some { r with pc := .lookupElem key }
    | none => some { r with pc := .returned true }
  | .lookupElem key =>
    let entries := match flows.get? key with
      | some stats => r.entries ++ [⟨key, stats⟩]
      | none => r.entries
    some ⟨entries, some key, .getNextKey⟩
  | .returned _ => none

end FlowStateSnapshot

namespace FlowScan

variable {bucket : KwatchFlowKey → ℕ}

def start (flows : HashTable KwatchFlowKey KwatchFlowStats bucket) : FlowScan bucket :=
  ⟨flows, .start⟩

def step (s : FlowScan bucket) : ScanStep → Option (FlowScan bucket)
  | .call => (s.refresh.step s.flowState).map fun r => { s with refresh := r }
  | .fault =>
    if s.refresh.pc = .getNextKey then some { s with refresh.pc := .returned false } else none
  | .insert key stats => (s.flowState.insert key stats).map fun t => { s with flowState := t }
  | .update key stats => (s.flowState.update key stats).map fun t => { s with flowState := t }
  | .evict key => (s.flowState.erase key).map fun t => { s with flowState := t }

/-- A step is a call of the search, a fault of it, or one operation on the map. -/
theorem step_cases {s s' : FlowScan bucket} {i : ScanStep} (h : s.step i = some s') :
    (i = .call ∧ ∃ r, s.refresh.step s.flowState = some r ∧ s' = { s with refresh := r }) ∨
    (i = .fault ∧ s' = { s with refresh.pc := .returned false }) ∨
    ∃ t, s' = { s with flowState := t } ∧
      ((∃ k v, i = .insert k v ∧ s.flowState.insert k v = some t) ∨
        (∃ k v, i = .update k v ∧ s.flowState.update k v = some t) ∨
        ∃ k, i = .evict k ∧ s.flowState.erase k = some t) := by
  cases i with
  | call =>
    obtain ⟨r, hr, rfl⟩ := Option.map_eq_some_iff.mp h
    exact .inl ⟨rfl, r, hr, rfl⟩
  | fault =>
    rw [step] at h
    split at h
    · cases h
      exact .inr (.inl ⟨rfl, rfl⟩)
    · cases h
  | insert k v =>
    obtain ⟨t, ht, rfl⟩ := Option.map_eq_some_iff.mp h
    exact .inr (.inr ⟨t, rfl, .inl ⟨k, v, rfl, ht⟩⟩)
  | update k v =>
    obtain ⟨t, ht, rfl⟩ := Option.map_eq_some_iff.mp h
    exact .inr (.inr ⟨t, rfl, .inr (.inl ⟨k, v, rfl, ht⟩)⟩)
  | evict k =>
    obtain ⟨t, ht, rfl⟩ := Option.map_eq_some_iff.mp h
    exact .inr (.inr ⟨t, rfl, .inr (.inr ⟨k, rfl, ht⟩)⟩)

/-- A step leaves the entry that the search has reached in the map. -/
def KeepsCursor (s : FlowScan bucket) (i : ScanStep) : Prop :=
  ∀ key, i = .evict key → s.refresh.cursor ≠ some key

instance (s : FlowScan bucket) (i : ScanStep) : Decidable (s.KeepsCursor i) :=
  match i with
  | .evict key => decidable_of_iff (s.refresh.cursor ≠ some key) (by simp [KeepsCursor])
  | .call | .fault | .insert _ _ | .update _ _ => .isTrue (by rintro key ⟨⟩)

end FlowScan

/-! ### No flow is missed -/

section Missed

open Buckets

variable {bucket : KwatchFlowKey → ℕ}

/-- A key lies ahead of the cursor: in its place when the cursor is stored, and in any case not in
an earlier bucket, so that it stays ahead when the cursor comes back. -/
def Ahead (flows : HashTable KwatchFlowKey KwatchFlowStats bucket) (c key : KwatchFlowKey) : Prop :=
  bucket c ≤ bucket key ∧ (c ∈ flows.keys → Before flows.keys c key)

/-- A stored key has been read or is still to come. -/
def Unmissed (key : KwatchFlowKey) (s : FlowScan bucket) : Prop :=
  key ∈ s.flowState.keys ∧
    match s.refresh.pc with
    | .getNextKey =>
      key ∈ s.refresh.keys ∨ ∀ c, s.refresh.lookupKey = some c → Ahead s.flowState c key
    | .lookupElem c => key ∈ s.refresh.keys ∨ key = c ∨ Ahead s.flowState c key
    | .returned ok => ok = true → key ∈ s.refresh.keys

theorem ahead_insert {t t' : HashTable KwatchFlowKey KwatchFlowStats bucket} {k c key : KwatchFlowKey}
    {v : KwatchFlowStats} (h : t.insert k v = some t') (hkey : key ∈ t.keys) (ha : Ahead t c key) :
    Ahead t' c key := by
  obtain ⟨hk, hkeys⟩ := HashTable.keys_insert h
  have hne : key ≠ k := by
    rintro rfl
    exact hk hkey
  refine ⟨ha.1, fun hc => ?_⟩
  rw [hkeys] at hc ⊢
  by_cases hck : c = k
  · subst hck
    exact before_of_bucket_le t.keys_nodup hk hkey ha.1
  · rw [before_insertKey_iff hck hne hk]
    exact ha.2 ((mem_insertKey.mp hc).resolve_left hck)

theorem ahead_erase {t t' : HashTable KwatchFlowKey KwatchFlowStats bucket} {k c key : KwatchFlowKey}
    (h : t.erase k = some t') (hne : key ≠ k) (ha : Ahead t c key) : Ahead t' c key := by
  refine ⟨ha.1, fun hc => ?_⟩
  rw [(HashTable.keys_erase h).2, List.mem_filter, decide_eq_true_iff] at hc
  rw [HashTable.before_erase_iff h hc.2 hne]
  exact ha.2 hc.1

/-- The key that a search returns has every unread key on it or ahead of it. -/
theorem ahead_nextKey {t : HashTable KwatchFlowKey KwatchFlowStats bucket}
    {c : Option KwatchFlowKey} {k key : KwatchFlowKey} (h : t.nextKey c = some k)
    (hkey : key ∈ t.keys) (ha : ∀ c', c = some c' → Ahead t c' key) : key = k ∨ Ahead t k key := by
  have hbefore : key = k ∨ Before t.keys k key := by
    rcases c with _ | c
    · exact before_of_head? t.keys_nodup h hkey
    · by_cases hc : c ∈ t.keys
      · exact (before_nextKey_iff t.keys_nodup hc h).mp ((ha c rfl).2 hc)
      · rw [HashTable.nextKey, nextKey_of_notMem hc] at h
        exact before_of_head? t.keys_nodup h hkey
  rcases hbefore with rfl | hbefore
  · exact Or.inl rfl
  · exact Or.inr ⟨before_le t.sorted hbefore, fun _ => hbefore⟩

theorem nextKey_ne_none {t : HashTable KwatchFlowKey KwatchFlowStats bucket}
    {c : Option KwatchFlowKey} {key : KwatchFlowKey} (hkey : key ∈ t.keys)
    (ha : ∀ c', c = some c' → Ahead t c' key) : t.nextKey c ≠ none := by
  intro h
  have hhead : t.keys.head? ≠ none := by
    rw [ne_eq, List.head?_eq_none_iff]
    rintro hnil
    rw [hnil] at hkey
    cases hkey
  rcases c with _ | c
  · exact hhead h
  · by_cases hc : c ∈ t.keys
    · exact nextKey_eq_none t.keys_nodup hc h key ((ha c rfl).2 hc)
    · rw [HashTable.nextKey, nextKey_of_notMem hc] at h
      exact hhead h

theorem Unmissed.call {s : FlowScan bucket} {key : KwatchFlowKey} (hs : Unmissed key s)
    {r : FlowStateSnapshot} (h : s.refresh.step s.flowState = some r) :
    Unmissed key { s with refresh := r } := by
  obtain ⟨flows, r₀⟩ := s
  obtain ⟨entries, lookupKey, pc⟩ := r₀
  obtain ⟨hkey, hread⟩ := hs
  refine ⟨hkey, ?_⟩
  cases pc with
  | getNextKey =>
    simp only [FlowStateSnapshot.step] at h hread
    cases hn : flows.nextKey lookupKey with
    | some k =>
      simp only [hn, Option.some.injEq] at h
      subst h
      rcases hread with hread | hread
      · exact Or.inl hread
      · exact Or.inr (ahead_nextKey hn hkey hread)
    | none =>
      simp only [hn, Option.some.injEq] at h
      subst h
      rcases hread with hread | hread
      · exact fun _ => hread
      · exact absurd hn (nextKey_ne_none hkey hread)
  | lookupElem k =>
    simp only [FlowStateSnapshot.step, Option.some.injEq] at h hread
    subst h
    simp only [FlowStateSnapshot.keys] at hread ⊢
    rcases hread with hread | rfl | hread
    · left
      cases flows.get? k with
      | none => exact hread
      | some stats => simp [hread]
    · left
      obtain ⟨stats, hstats⟩ := Option.isSome_iff_exists.mp (HashTable.mem_keys_iff_isSome.mp hkey)
      simp [hstats]
    · right
      rintro c ⟨⟩
      exact hread
  | returned ok => cases h

/-- A change of the map that keeps the key and what it is ahead of. -/
theorem Unmissed.of_map {s : FlowScan bucket} {key : KwatchFlowKey} (hs : Unmissed key s)
    {t : HashTable KwatchFlowKey KwatchFlowStats bucket} (hkey : key ∈ t.keys)
    (hahead : ∀ c, Ahead s.flowState c key → Ahead t c key) :
    Unmissed key { s with flowState := t } := by
  obtain ⟨flows, r⟩ := s
  obtain ⟨-, hread⟩ := hs
  refine ⟨hkey, ?_⟩
  obtain ⟨entries, lookupKey, pc⟩ := r
  cases pc with
  | getNextKey =>
    rcases hread with hread | hread
    · exact Or.inl hread
    · exact Or.inr fun c hc => hahead c (hread c hc)
  | lookupElem k =>
    rcases hread with hread | hread | hread
    · exact Or.inl hread
    · exact Or.inr (Or.inl hread)
    · exact Or.inr (Or.inr (hahead k hread))
  | returned ok => exact hread

theorem Unmissed.step {s s' : FlowScan bucket} {i : ScanStep} {key : KwatchFlowKey}
    (hs : Unmissed key s) (hi : i ≠ .evict key) (h : s.step i = some s') : Unmissed key s' := by
  rcases FlowScan.step_cases h with ⟨-, r, hr, rfl⟩ | ⟨-, rfl⟩ | ⟨t, rfl, ht⟩
  · exact hs.call hr
  · exact ⟨hs.1, nofun⟩
  · rcases ht with ⟨k, v, -, ht⟩ | ⟨k, v, -, ht⟩ | ⟨k, rfl, ht⟩
    · apply hs.of_map
      · rw [(HashTable.keys_insert ht).2]
        exact mem_insertKey.mpr (Or.inr hs.1)
      · intro c hc
        exact ahead_insert ht hs.1 hc
    · have hkeys := HashTable.keys_update ht
      apply hs.of_map
      · rw [hkeys]
        exact hs.1
      · intro c hc
        simpa only [Ahead, hkeys] using hc
    · have hne : key ≠ k := fun he => hi (he ▸ rfl)
      apply hs.of_map
      · rw [(HashTable.keys_erase ht).2, List.mem_filter]
        exact ⟨hs.1, by simpa using hne⟩
      · intro c hc
        exact ahead_erase ht hne hc

end Missed

/-! ### No flow is read twice -/

section Twice

open Buckets

variable {bucket : KwatchFlowKey → ℕ}

/-- With the cursor in its place, what has been read lies at or before it. -/
structure Behind (flows : HashTable KwatchFlowKey KwatchFlowStats bucket) (c : KwatchFlowKey)
    (read : List KwatchFlowKey) : Prop where
  stored : c ∈ flows.keys
  bucket_le : ∀ key ∈ read, bucket key ≤ bucket c
  not_before : ∀ key ∈ read, ¬Before flows.keys c key

/-- No key has been read twice, and none that has been read is to come. -/
def Untwiced (s : FlowScan bucket) : Prop :=
  s.refresh.keys.Nodup ∧
    match s.refresh.pc with
    | .getNextKey => match s.refresh.lookupKey with
      | none => s.refresh.keys = []
      | some c => Behind s.flowState c s.refresh.keys
    | .lookupElem c => c ∉ s.refresh.keys ∧ Behind s.flowState c s.refresh.keys
    | .returned _ => True

variable {t t' : HashTable KwatchFlowKey KwatchFlowStats bucket} {c : KwatchFlowKey}
  {read : List KwatchFlowKey}

theorem Behind.insert {k : KwatchFlowKey} {v : KwatchFlowStats} (hb : Behind t c read)
    (h : t.insert k v = some t') : Behind t' c read := by
  obtain ⟨hk, hkeys⟩ := HashTable.keys_insert h
  have hck : c ≠ k := by
    rintro rfl
    exact hk hb.stored
  constructor
  · rw [hkeys]
    exact mem_insertKey.mpr (Or.inr hb.stored)
  · exact hb.bucket_le
  · intro key hkey hbefore
    rw [hkeys] at hbefore
    by_cases hne : key = k
    · subst hne
      -- a key that is read, evicted and inserted again goes to the head of an earlier chain
      exact absurd (bucket_lt_of_before t.keys_nodup hk hbefore) (not_lt.mpr (hb.bucket_le key hkey))
    · rw [before_insertKey_iff hck hne hk] at hbefore
      exact hb.not_before key hkey hbefore

theorem Behind.erase {k : KwatchFlowKey} (hb : Behind t c read) (h : t.erase k = some t')
    (hck : c ≠ k) : Behind t' c read := by
  constructor
  · rw [(HashTable.keys_erase h).2, List.mem_filter]
    exact ⟨hb.stored, by simpa using hck⟩
  · exact hb.bucket_le
  · intro key hkey hbefore
    rw [(HashTable.keys_erase h).2] at hbefore
    exact hb.not_before key hkey (hbefore.of_sublist List.filter_sublist)

theorem Behind.nextKey {k : KwatchFlowKey} (hb : Behind t c read) (h : t.nextKey (some c) = some k) :
    k ∉ read ∧ Behind t k read := by
  have hnext (key : KwatchFlowKey) := before_nextKey_iff (a := key) t.keys_nodup hb.stored h
  have hk : Before t.keys c k := (hnext k).mpr (Or.inl rfl)
  constructor
  · intro hm
    exact hb.not_before k hm hk
  · constructor
    · exact hk.mem_right
    · intro key hkey
      exact (hb.bucket_le key hkey).trans (before_le t.sorted hk)
    · intro key hkey hbefore
      exact hb.not_before key hkey ((hnext key).mpr (Or.inr hbefore))

theorem Behind.concat (hb : Behind t c read) : Behind t c (read ++ [c]) := by
  constructor
  · exact hb.stored
  · intro key hkey
    rcases List.mem_append.mp hkey with hkey | hkey
    · exact hb.bucket_le key hkey
    · rw [List.mem_singleton.mp hkey]
  · intro key hkey
    rcases List.mem_append.mp hkey with hkey | hkey
    · exact hb.not_before key hkey
    · rw [List.mem_singleton.mp hkey]
      exact not_before_self t.keys_nodup

theorem Untwiced.call {s : FlowScan bucket} (hs : Untwiced s) {r : FlowStateSnapshot}
    (h : s.refresh.step s.flowState = some r) : Untwiced { s with refresh := r } := by
  obtain ⟨flows, r₀⟩ := s
  obtain ⟨entries, lookupKey, pc⟩ := r₀
  obtain ⟨hn, hs⟩ := hs
  cases pc with
  | getNextKey =>
    simp only [FlowStateSnapshot.step] at h
    cases hnext : flows.nextKey lookupKey with
    | none =>
      simp only [hnext, Option.some.injEq] at h
      subst h
      exact ⟨hn, trivial⟩
    | some k =>
      simp only [hnext, Option.some.injEq] at h
      subst h
      refine ⟨hn, ?_⟩
      rcases lookupKey with _ | c
      · have hnil : entries.map FlowMapEntry.key = [] := hs
        simp only [FlowStateSnapshot.keys, hnil]
        refine ⟨List.not_mem_nil, ?_, by simp, by simp⟩
        exact List.mem_of_mem_head? (Option.mem_def.mpr hnext)
      · exact Behind.nextKey hs hnext
  | lookupElem k =>
    simp only [FlowStateSnapshot.step, Option.some.injEq] at h
    subst h
    obtain ⟨hk, hb⟩ := hs
    simp only [FlowStateSnapshot.keys] at hn hk hb
    cases hget : flows.get? k with
    | none => exact ⟨hn, hb⟩
    | some stats =>
      have hkeys : (entries ++ [(⟨k, stats⟩ : FlowMapEntry)]).map FlowMapEntry.key =
          entries.map FlowMapEntry.key ++ [k] := by simp
      simp only [Untwiced, FlowStateSnapshot.keys, hkeys]
      constructor
      · apply hn.append (List.nodup_singleton k)
        rw [List.disjoint_singleton]
        exact hk
      · exact hb.concat
  | returned ok => cases h

/-- A change of the map that leaves the cursor in its place and what was read behind it. -/
theorem Untwiced.of_map {s : FlowScan bucket} (hs : Untwiced s)
    {t : HashTable KwatchFlowKey KwatchFlowStats bucket}
    (hbehind : ∀ c, s.refresh.cursor = some c → Behind s.flowState c s.refresh.keys →
      Behind t c s.refresh.keys) : Untwiced { s with flowState := t } := by
  obtain ⟨flows, r⟩ := s
  obtain ⟨hn, hs⟩ := hs
  refine ⟨hn, ?_⟩
  obtain ⟨entries, lookupKey, pc⟩ := r
  cases pc with
  | getNextKey =>
    rcases lookupKey with _ | c
    · exact hs
    · exact hbehind c rfl hs
  | lookupElem k => exact ⟨hs.1, hbehind k rfl hs.2⟩
  | returned ok => exact hs

theorem Untwiced.step {s s' : FlowScan bucket} {i : ScanStep} (hs : Untwiced s)
    (hi : s.KeepsCursor i) (h : s.step i = some s') : Untwiced s' := by
  rcases FlowScan.step_cases h with ⟨-, r, hr, rfl⟩ | ⟨-, rfl⟩ | ⟨t, rfl, ht⟩
  · exact hs.call hr
  · exact ⟨hs.1, trivial⟩
  · apply hs.of_map
    intro c hc hb
    rcases ht with ⟨k, v, -, ht⟩ | ⟨k, v, -, ht⟩ | ⟨k, rfl, ht⟩
    · exact hb.insert ht
    · have hkeys := HashTable.keys_update ht
      obtain ⟨hstored, hle, hnot⟩ := hb
      exact ⟨hkeys ▸ hstored, hle, hkeys ▸ hnot⟩
    · apply hb.erase ht
      rintro rfl
      exact hi c rfl hc

end Twice

/-! ### Whole refreshes -/

namespace FlowScan

variable {bucket : KwatchFlowKey → ℕ}

/-- A refresh that returns has read every flow that stayed in the map, and if the entry that the
search had reached was never evicted, it has read no flow twice. -/
theorem refresh_reads {flows : HashTable KwatchFlowKey KwatchFlowStats bucket}
    {steps : List ScanStep} {s : FlowScan bucket} (hrun : Run.exec step (start flows) steps = some s)
    (hok : s.refresh.pc = .returned true) :
    (∀ key ∈ flows.keys, .evict key ∉ steps → key ∈ s.refresh.keys) ∧
      (Run.Meets step KeepsCursor (start flows) steps → s.refresh.keys.Nodup) := by
  constructor
  · intro key hkey hstay
    have hmeets : Run.Meets step (fun _ i => i ≠ .evict key) (start flows) steps :=
      Run.meets_of_forall _ fun i hi he => hstay (he ▸ hi)
    have hstart : Unmissed key (start flows) := ⟨hkey, Or.inr fun c hc => by cases hc⟩
    have hend := Run.invariant (P := Unmissed key) (fun s i s' hs hi h => hs.step hi h) hstart
      hmeets hrun
    have hread := hend.2
    rw [hok] at hread
    exact hread rfl
  · intro hmeets
    have hstart : Untwiced (start flows) := ⟨List.nodup_nil, rfl⟩
    exact (Run.invariant (P := Untwiced) (fun s i s' hs hi h => hs.step hi h) hstart hmeets hrun).1

end FlowScan

/-! ### An evicted cursor -/

def flowFrom (ip : UInt32) : KwatchFlowKey := ⟨ip, 9, 1, 2, 6⟩

/-- Flows of two sources, in the buckets of their addresses. -/
def twoFlows : HashTable KwatchFlowKey KwatchFlowStats fun key => key.srcIp.toNat :=
  ⟨⟨[(flowFrom 1, ⟨3, 0, 5, 5⟩), (flowFrom 2, ⟨1, 1, 6, 6⟩)], by decide⟩, by decide⟩

/-- A flow evicted after the search has passed it is read once. -/
theorem refresh_reads_passed : ∃ s, Run.exec FlowScan.step (.start twoFlows)
      [.call, .call, .call, .evict (flowFrom 1), .call, .call] = some s ∧
    s.refresh.keys = [flowFrom 1, flowFrom 2] ∧
    (flowFrom 2 ∈ s.refresh.keys ∧ s.refresh.keys.Nodup) := by
  refine ⟨_, rfl, rfl, ?_⟩
  have h := @FlowScan.refresh_reads _ twoFlows
    [.call, .call, .call, .evict (flowFrom 1), .call, .call] _ rfl rfl
  exact ⟨h.1 (flowFrom 2) (by decide) (by decide), h.2 (by decide)⟩

/-- When the flow under the cursor is evicted, the search starts again and the flow of the other
source is read a second time. -/
theorem refresh_reads_twice : ∃ s, Run.exec FlowScan.step (.start twoFlows)
      [.call, .call, .call, .call, .evict (flowFrom 2), .call, .call, .call] = some s ∧
    s.refresh.pc = .returned true ∧ ¬s.refresh.keys.Nodup := by
  refine ⟨_, rfl, rfl, ?_⟩
  decide

end KWatch
