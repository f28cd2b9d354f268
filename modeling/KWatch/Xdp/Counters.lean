import KWatch.Xdp.Effects

/-! # The packet counters

The counter map has room for 256 keys while the program counts 259 classes. A run is exact as
long as at most 256 classes occur in it and no class overflows its 64-bit counter; a further
class is never stored.
-/

namespace KWatch

/-- The counter class of an arriving frame. -/
def Arrival.counterClass (a : Arrival) : Option UInt32 :=
  KWatch.counterClass a.blacklist (frameView a.frame)

/-- The classes of a run in order, frames without a class left out. -/
def classes (as : List Arrival) : List UInt32 := as.filterMap Arrival.counterClass

/-- The number of frames in a class. -/
def classCount (as : List Arrival) (k : UInt32) : ℕ := as.countP fun a => a.counterClass = some k

/-- The value stored under a key, an absent key counting as 0. -/
def storedCount (t : Table UInt32 UInt64) (k : UInt32) : ℕ := ((t.get? k).map UInt64.toNat).getD 0

/-- The classes in the words of the frame grammar. -/
theorem counterClass_eq_some_iff {b : LpmTrie} {f : Frame} {k : UInt32} :
    counterClass b (frameView f) = some k ↔
      (∃ F : Ipv4Frame, F.encode = f ∧
        k = if ∃ n ∈ b.networks, InNetwork F.ip.saddr n then 0xFFFF else F.ip.protocol.toUInt32) ∨
      ∃ E : EthFrame, E.encode = f ∧
        (E.ethType = ETH_P_IPV6 ∧ k = 0x86DD ∨ E.ethType = ETH_P_ARP ∧ k = 0x0806) := by
  rw [← frameView_eq_sentinel_iff]
  constructor
  · intro h
    cases hv : frameView f with
    | ignored => simp [hv, counterClass] at h
    | sentinel k' =>
      simp only [hv, counterClass, Option.some.injEq] at h
      exact Or.inr (h ▸ rfl)
    | ipv4 ip =>
      obtain ⟨F, rfl, rfl⟩ := frameView_eq_ipv4_iff.mp hv
      simp only [hv, counterClass, isBlacklisted, LpmTrie.lookup_host_isSome_iff,
        Option.some.injEq] at h
      exact Or.inl ⟨F, rfl, h.symm⟩
  · rintro (⟨F, rfl, rfl⟩ | h)
    · simp only [frameView_encode, counterClass, isBlacklisted, LpmTrie.lookup_host_isSome_iff]
      rfl
    · rw [h]; rfl

/-! ### The counter table -/

/-- Folding classes into a table. -/
def countAll (ks : List UInt32) : Table UInt32 UInt64 := ks.foldl (fun t k => incCount k t) .empty

theorem countAll_append (ks : List UInt32) (k : UInt32) :
    countAll (ks ++ [k]) = incCount k (countAll ks) := by
  simp [countAll]

/-- What the counters hold after a list of classes. -/
structure Counted (ks : List UInt32) (t : Table UInt32 UInt64) : Prop where
  bounded : t.size ≤ pktCountsMaxEntries
  occurs : ∀ k ∈ t.keys, k ∈ ks
  value : ∀ k c, t.get? k = some c → c = UInt64.ofNat (ks.count k)
  full : ∀ k ∈ ks, k ∉ t.keys → t.size = pktCountsMaxEntries

/-- A counter that is written with the count of its class; a map that missed a class before is
still full. -/
theorem Counted.set {ks : List UInt32} {t : Table UInt32 UInt64} (hc : Counted ks t) {k : UInt32}
    {v : UInt64} (hv : v = UInt64.ofNat ((ks ++ [k]).count k))
    (hsize : (t.set k v).size ≤ pktCountsMaxEntries) (hgrow : t.size ≤ (t.set k v).size) :
    Counted (ks ++ [k]) (t.set k v) := by
  constructor
  · exact hsize
  · intro k' hk'
    rcases Table.mem_keys_set.mp hk' with rfl | hk'
    · simp
    · exact List.mem_append_left _ (hc.occurs k' hk')
  · intro k' c' hc'
    rw [Table.get?_set] at hc'
    split at hc'
    · next he =>
      subst he
      cases hc'
      exact hv
    · next he =>
      rw [hc.value k' c' hc', List.count_append, List.count_singleton]
      simp [Ne.symm he]
  · intro k' hk' hn
    have hn' : k' ≠ k ∧ k' ∉ t.keys := not_or.mp (mt Table.mem_keys_set.mpr hn)
    have hold : k' ∈ ks := by simpa [hn'.1] using hk'
    rw [hc.full k' hold hn'.2] at hgrow
    exact le_antisymm hsize hgrow

theorem Counted.incCount {ks : List UInt32} {t : Table UInt32 UInt64} (hc : Counted ks t)
    (k : UInt32) : Counted (ks ++ [k]) (incCount k t) := by
  unfold KWatch.incCount
  cases hk : t.get? k with
  | some c =>
    have hsize := Table.size_set_of_mem (Table.mem_keys_of_get? hk) (c + 1)
    apply hc.set
    · rw [hc.value k c hk, List.count_append, List.count_singleton_self]
      exact (UInt64.ofNat_add ..).symm
    · exact hsize.le.trans hc.bounded
    · exact hsize.ge
  | none =>
    have hm : k ∉ t.keys := Table.get?_eq_none_iff.mp hk
    cases hp : t.putNew pktCountsMaxEntries k 1 with
    | none =>
      have hfull : t.size = pktCountsMaxEntries := by
        by_contra hne
        have hlt : t.size < pktCountsMaxEntries := lt_of_le_of_ne hc.bounded hne
        have hsome : t.putNew pktCountsMaxEntries k 1 = some (t.set k 1) :=
          Table.putNew_eq_some_iff.mpr ⟨hm, hlt, rfl⟩
        rw [hp] at hsome
        cases hsome
      constructor
      · exact hc.bounded
      · intro k' hk'
        exact List.mem_append_left _ (hc.occurs k' hk')
      · intro k' c' hc'
        have hne : k' ≠ k := fun he => hm (he ▸ Table.mem_keys_of_get? hc')
        rw [hc.value k' c' hc', List.count_append, List.count_singleton]
        simp [Ne.symm hne]
      · exact fun _ _ _ => hfull
    | some u =>
      obtain ⟨-, hlt, rfl⟩ := Table.putNew_eq_some_iff.mp hp
      have hnew : k ∉ ks := fun hks => hlt.ne (hc.full k hks hm)
      have hsize := Table.size_set_of_notMem hm (1 : UInt64)
      apply hc.set
      · rw [List.count_append, List.count_singleton_self, List.count_eq_zero_of_not_mem hnew]
        rfl
      · rw [hsize]
        exact hlt
      · rw [hsize]
        exact Nat.le_succ _

theorem counted_countAll (ks : List UInt32) : Counted ks (countAll ks) := by
  induction ks using List.reverseRecOn with
  | nil => exact ⟨by simp [countAll], by simp [countAll], by simp [countAll], by simp⟩
  | append_singleton ks k ih => rw [countAll_append]; exact ih.incCount k

theorem Counted.keys_card {ks : List UInt32} {t : Table UInt32 UInt64} (hc : Counted ks t)
    (h : ks.toFinset.card ≤ pktCountsMaxEntries) : ∀ k ∈ ks, k ∈ t.keys := by
  intro k hk
  by_contra hn
  have hsub : insert k t.keys.toFinset ⊆ ks.toFinset := by
    intro k' hk'
    rw [List.mem_toFinset]
    rcases Finset.mem_insert.mp hk' with rfl | hk'
    · exact hk
    · exact hc.occurs k' (List.mem_toFinset.mp hk')
  have hcard := Finset.card_le_card hsub
  rw [Finset.card_insert_of_notMem (by rwa [List.mem_toFinset]), Table.toFinset_keys_card,
    hc.full k hk hn] at hcard
  omega

theorem Counted.storedCount_eq {ks : List UInt32} {t : Table UInt32 UInt64} (hc : Counted ks t)
    {k : UInt32} (hk : k ∈ ks → k ∈ t.keys) : storedCount t k = ks.count k % 2 ^ 64 := by
  by_cases hm : k ∈ t.keys
  · obtain ⟨c, hget⟩ := Option.isSome_iff_exists.mp (Table.mem_keys_iff_isSome.mp hm)
    simp [storedCount, hget, hc.value k c hget]
  · have hz : ks.count k = 0 := List.count_eq_zero_of_not_mem (mt hk hm)
    simp [storedCount, Table.get?_eq_none_iff.mpr hm, hz]

theorem storedCount_lt (t : Table UInt32 UInt64) (k : UInt32) : storedCount t k < 2 ^ 64 := by
  unfold storedCount
  cases t.get? k with
  | none => simp
  | some c => exact c.toNat_lt

/-- A full map does not count a new class. -/
theorem storedCount_incCount_of_full {t : Table UInt32 UInt64} {k : UInt32} (hk : k ∉ t.keys)
    (hfull : t.size = pktCountsMaxEntries) : storedCount (incCount k t) k = 0 := by
  have hget : t.get? k = none := Table.get?_eq_none_iff.mpr hk
  have hput : t.putNew pktCountsMaxEntries k 1 = none := by
    simp [Table.putNew, Table.put, hk, hfull]
  simp [storedCount, incCount, hget, hput]

/-- The counters equal the class counts unless classes or counts outgrow the map. -/
theorem countAll_exact_iff (ks : List UInt32) :
    (∀ k, storedCount (countAll ks) k = ks.count k) ↔
      ks.toFinset.card ≤ pktCountsMaxEntries ∧ ∀ k, ks.count k < 2 ^ 64 := by
  have hc := counted_countAll ks
  constructor
  · intro h
    refine ⟨?_, fun k => h k ▸ storedCount_lt _ k⟩
    have hsub : ks.toFinset ⊆ (countAll ks).keys.toFinset := by
      intro k hk
      rw [List.mem_toFinset] at hk ⊢
      by_contra hn
      have hz : ks.count k = 0 := by
        rw [← h k]; simp [storedCount, Table.get?_eq_none_iff.mpr hn]
      exact (List.count_pos_iff.mpr hk).ne' hz
    exact (Finset.card_le_card hsub).trans ((Table.toFinset_keys_card _).trans_le hc.bounded)
  · rintro ⟨hcard, hlt⟩ k
    rw [hc.storedCount_eq (hc.keys_card hcard k), Nat.mod_eq_of_lt (hlt k)]

/-! ### Runs -/

theorem xdpRun_cons (cfg : KwatchRuntimeConfig) (m : Maps) (a : Arrival) (as : List Arrival) :
    xdpRun cfg m (a :: as) = xdpRun cfg
      (runView cfg a.helpers a.frame { m with blacklist := a.blacklist }
        (frameView a.frame)).2 as := by
  simp [xdpRun, xdpKwatchProg_eq]

theorem xdpRun_pktCounts (cfg : KwatchRuntimeConfig) (m : Maps) (as : List Arrival) :
    ∃ m', xdpRun cfg m as = some m' ∧
      m'.pktCounts = (classes as).foldl (fun t k => incCount k t) m.pktCounts := by
  induction as generalizing m with
  | nil => exact ⟨m, rfl, rfl⟩
  | cons a as ih =>
    obtain ⟨m', hm', hp⟩ := ih
      (runView cfg a.helpers a.frame { m with blacklist := a.blacklist } (frameView a.frame)).2
    refine ⟨m', by rw [xdpRun_cons, hm'], ?_⟩
    rw [hp, runView_pktCounts]
    cases hk : counterClass a.blacklist (frameView a.frame) <;>
      simp [classes, Arrival.counterClass, hk]

theorem xdpRun_empty_pktCounts (cfg : KwatchRuntimeConfig) (as : List Arrival) :
    ∃ m, xdpRun cfg .empty as = some m ∧ m.pktCounts = countAll (classes as) :=
  xdpRun_pktCounts cfg .empty as

theorem classCount_eq (as : List Arrival) (k : UInt32) : classCount as k = (classes as).count k := by
  induction as with
  | nil => rfl
  | cons a as ih =>
    simp only [classCount, classes, List.countP_cons, List.filterMap_cons] at ih ⊢
    cases hk : a.counterClass with
    | none => simp [ih]
    | some k' => simp [ih, List.count_cons]

/-- The counters of a run from empty maps are exact if and only if at most 256 classes occur in
it and none of them in 2⁶⁴ or more frames. -/
theorem pktCounts_exact_iff (cfg : KwatchRuntimeConfig) (as : List Arrival) :
    (∃ m, xdpRun cfg .empty as = some m ∧ ∀ k, storedCount m.pktCounts k = classCount as k) ↔
      (classes as).toFinset.card ≤ 256 ∧ ∀ k, classCount as k < 2 ^ 64 := by
  obtain ⟨m, hm, hp⟩ := xdpRun_empty_pktCounts cfg as
  simp only [classCount_eq, hm, Option.some.injEq, exists_eq_left', hp]
  exact countAll_exact_iff (classes as)

/-! ### The map is too small for all classes -/

def arpFrame : Frame := [0, 0, 0, 0, 0, 0, 0, 0, 0, 0, 0, 0, 0x08, 0x06]

/-- A frame arriving with an empty blacklist. -/
def onEmptyBlacklist (f : Frame) : Arrival := ⟨f, ⟨1, 1, 0, false, []⟩, .empty⟩

/-- One frame of every IPv4 protocol, then an ARP frame. -/
def everyProtocolThenArp : List Arrival :=
  (List.range 256).map (fun p => onEmptyBlacklist (bareIpv4 (UInt8.ofNat p))) ++
    [onEmptyBlacklist arpFrame]

theorem counterClass_bareIpv4 (p : UInt8) :
    (onEmptyBlacklist (bareIpv4 p)).counterClass = some p.toUInt32 := by
  have hv := frameView_bareIpv4 p
  have hb : (LpmTrie.empty.lookup (hostKey 0x0100000A)).isSome = false := by decide
  simp [Arrival.counterClass, onEmptyBlacklist, hv, counterClass, isBlacklisted, hb]

theorem counterClass_arpFrame : (onEmptyBlacklist arpFrame).counterClass = some 0x0806 := rfl

/-- The 256 protocol classes. -/
def protocolClasses : List UInt32 := (List.range 256).map fun p => UInt32.ofNat p

theorem protocolClasses_nodup : protocolClasses.Nodup := by
  refine List.Nodup.map_on ?_ List.nodup_range
  intro p hp q hq he
  rw [List.mem_range] at hp hq
  have hn := congrArg UInt32.toNat he
  simp only [UInt32.toNat_ofNat'] at hn
  omega

theorem classes_everyProtocolThenArp :
    classes everyProtocolThenArp = protocolClasses ++ [0x0806] := by
  rw [classes, everyProtocolThenArp, List.filterMap_append, List.filterMap_map]
  refine congrArg₂ (· ++ ·) ?_ (by rw [List.filterMap_cons, counterClass_arpFrame]; rfl)
  rw [protocolClasses, ← List.filterMap_eq_map]
  apply List.filterMap_congr
  intro p hp
  rw [List.mem_range] at hp
  rw [Function.comp_apply, Function.comp_apply, counterClass_bareIpv4, Option.some.injEq]
  apply UInt32.toNat_inj.mp
  simp only [UInt8.toNat_toUInt32, UInt8.toNat_ofNat', UInt32.toNat_ofNat']
  omega

theorem countAll_protocolClasses_size :
    (countAll protocolClasses).size = pktCountsMaxEntries := by
  have hc := counted_countAll protocolClasses
  have hcard : protocolClasses.toFinset.card = pktCountsMaxEntries := by
    rw [List.toFinset_card_of_nodup protocolClasses_nodup]
    simp [protocolClasses, pktCountsMaxEntries]
  apply le_antisymm hc.bounded
  rw [← hcard, ← Table.toFinset_keys_card]
  apply Finset.card_le_card
  intro k hk
  rw [List.mem_toFinset] at hk ⊢
  exact hc.keys_card hcard.le k hk

/-- After a frame of every protocol the ARP frame is not counted. -/
theorem pktCounts_misses_arp :
    ∃ m, xdpRun ⟨100, 10000000000⟩ .empty everyProtocolThenArp = some m ∧
      classCount everyProtocolThenArp 0x0806 = 1 ∧ storedCount m.pktCounts 0x0806 = 0 := by
  obtain ⟨m, hm, hp⟩ := xdpRun_empty_pktCounts ⟨100, 10000000000⟩ everyProtocolThenArp
  have hn : (0x0806 : UInt32) ∉ protocolClasses := by
    simp only [protocolClasses, List.mem_map, List.mem_range, not_exists, not_and]
    intro p hp he
    have hn := congrArg UInt32.toNat he
    simp at hn
    omega
  have hk : (0x0806 : UInt32) ∉ (countAll protocolClasses).keys :=
    mt ((counted_countAll protocolClasses).occurs _) hn
  refine ⟨m, hm, ?_, ?_⟩
  · rw [classCount_eq, classes_everyProtocolThenArp, List.count_append,
      List.count_eq_zero_of_not_mem hn, List.count_singleton_self]
  · rw [hp, classes_everyProtocolThenArp, countAll_append]
    exact storedCount_incCount_of_full hk countAll_protocolClasses_size

end KWatch
