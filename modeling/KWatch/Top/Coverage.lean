import KWatch.Top.Tick

/-! # Blocked sources in the map

The tracker marks a source as blocked before the dashboard inserts its entry, and the result of
the insertion is not looked at. As long as no insertion that is needed fails, every blocked
source is covered after every tick; one that fails is not tried again.
-/

namespace KWatch.Top

open FlowTracker

/-- Some entry of the map contains the address. -/
def Covered (b : LpmTrie) (ip : UInt32) : Prop := ∃ n ∈ b.networks, InNetwork ip n

/-- The steps by which the operator removes nothing and no needed insertion fails: it succeeds,
or its address is covered anyway, or is not blocked any more. -/
def Covers (s : Top) : TopStep → Prop
  | .operatorUnblock _ _ => False
  | .applyNext ok => ∀ ip rest, s.pending = .insert ip :: rest →
      (ok = true ∧ ((hostKey ip).network ∈ s.blacklist.networks ∨
        s.blacklist.networks.length < blacklistMaxEntries)) ∨
      Covered s.blacklist ip ∨ ¬ s.tracker.Blocked ip
  | _ => True

/-- Every blocked source is covered or waits for its insertion. -/
structure Covering (s : Top) : Prop where
  covered : ∀ ip, s.tracker.Blocked ip → Covered s.blacklist ip ∨ MapOp.insert ip ∈ s.pending
  released : ∀ ip, MapOp.remove ip ∈ s.pending → ¬ s.tracker.Blocked ip

theorem Covered.mono {b b' : LpmTrie} {ip : UInt32} (h : Covered b ip)
    (hb : ∀ n ∈ b.networks, n ∈ b'.networks) : Covered b' ip := by
  obtain ⟨n, hn, hin⟩ := h
  exact ⟨n, hb n hn, hin⟩

theorem KeepsBlock.blocked_iff {t t' : FlowTracker} {ip : UInt32}
    (h : KeepsBlock (t.ipStats.get? ip) (t'.ipStats.get? ip)) : t'.Blocked ip ↔ t.Blocked ip := by
  have hs : t'.blockStart ip = t.blockStart ip := h.start
  rw [blocked_iff_blockStart, blocked_iff_blockStart, hs]

/-- A tracker call that keeps every block keeps the coverage. -/
theorem Covering.silent {s : Top} (h : s.Covering) {t : FlowTracker}
    (hk : ∀ ip, KeepsBlock (s.tracker.ipStats.get? ip) (t.ipStats.get? ip)) :
    Covering { s with tracker := t } :=
  ⟨fun ip hb => h.covered ip ((KeepsBlock.blocked_iff (hk ip)).mp hb),
    fun ip hr hb => h.released ip hr ((KeepsBlock.blocked_iff (hk ip)).mp hb)⟩

/-- An insertion that succeeds covers its address. -/
theorem covered_applyOp_insert {t : LpmTrie} {ip : UInt32}
    (h : (hostKey ip).network ∈ t.networks ∨ t.networks.length < blacklistMaxEntries) :
    Covered (applyOp true t (.insert ip)) ip := by
  have hlen : (hostKey ip).prefixlen.toNat ≤ 32 := le_of_eq rfl
  obtain ⟨u, hu⟩ := Option.isSome_iff_exists.mp
    ((LpmTrie.update_isSome_iff (v := 1) hlen).mpr h)
  refine ⟨(hostKey ip).network, ?_, (inNetwork_hostKey ip ip).mpr rfl⟩
  simp only [applyOp, tryUpdate, if_true, hu, Option.getD_some]
  exact (LpmTrie.mem_networks_update hu).mpr (Or.inl rfl)

theorem Covering.tick {s : Top} (h : s.Covering) (hp : s.pending = []) (now : UInt64) :
    Covering { s with
      tracker := afterTick now s.tracker
      pending := (toBlock now s.tracker).map .insert ++ (toUnblock now s.tracker).map .remove } := by
  constructor
  · intro ip hb
    obtain ⟨-, hnew | hold⟩ := blocked_afterTick.mp hb
    · exact Or.inr (by simpa using hnew)
    · refine Or.inl ((h.covered ip hold).resolve_right ?_)
      rw [hp]
      exact List.not_mem_nil
  · intro ip hr hb
    exact (blocked_afterTick.mp hb).1 (by simpa using hr)

theorem Covering.applyNext {s : Top} (h : s.Covering) {op : MapOp} {rest : List MapOp}
    (hp : s.pending = op :: rest) {ok : Bool} (hok : s.Covers (.applyNext ok)) :
    Covering { s with blacklist := applyOp ok s.blacklist op, pending := rest } := by
  constructor
  · intro ip hb
    have hcov := h.covered ip hb
    rw [hp, List.mem_cons] at hcov
    cases op with
    | insert ip' =>
      have hmono : ∀ n ∈ s.blacklist.networks,
          n ∈ (applyOp ok s.blacklist (.insert ip')).networks := fun n hn =>
        mem_networks_applyOp_insert ok _ ip' hn
      rcases hcov with hcov | he | hq
      · exact Or.inl (hcov.mono hmono)
      · cases he
        left
        rcases hok ip rest hp with ⟨rfl, hroom⟩ | hcov | hno
        · exact covered_applyOp_insert hroom
        · exact hcov.mono hmono
        · exact absurd hb hno
      · exact Or.inr hq
    | remove ip' =>
      have hne : ip ≠ ip' := by
        rintro rfl
        exact h.released ip (by rw [hp]; exact List.mem_cons_self) hb
      rcases hcov with ⟨n, hn, hin⟩ | he | hq
      · refine Or.inl ⟨n, mem_networks_tryDelete ok _ _ ?_ hn, hin⟩
        rintro rfl
        exact hne ((inNetwork_hostKey ip' ip).mp hin)
      · cases he
      · exact Or.inr hq
  · exact fun ip hr => h.released ip (by rw [hp]; exact List.mem_cons_of_mem _ hr)

theorem Covering.step {s s' : Top} {st : TopStep} (h : s.Covering) (hok : s.Covers st)
    (hst : s.step st = some s') : s'.Covering := by
  cases st with
  | operatorBlock k ok =>
    simp only [Top.step] at hst
    split at hst
    · cases hst; exact h
    · next b hb =>
      cases hst
      refine ⟨fun ip hbl => (h.covered ip hbl).imp (fun hc => hc.mono ?_) id, h.released⟩
      exact fun n hn => (mem_networks_tryUpdate hb).mpr (Or.inr hn)
  | operatorUnblock k ok => exact hok.elim
  | processEvent e =>
    simp only [Top.step, Option.ite_none_right_eq_some, Option.some.injEq] at hst
    obtain ⟨-, rfl⟩ := hst
    exact h.silent fun ip => processEvent_keepsBlock e s.tracker ip
  | processFlowSnapshot entries now =>
    simp only [Top.step, Option.ite_none_right_eq_some, Option.some.injEq] at hst
    obtain ⟨-, rfl⟩ := hst
    apply h.silent
    intro ip
    rw [processFlowSnapshot_get?]
    exact nextStats_keepsBlock ..
  | tick now =>
    simp only [Top.step, Option.ite_none_right_eq_some, Option.some.injEq] at hst
    obtain ⟨hp, rfl⟩ := hst
    exact h.tick hp now
  | applyNext ok =>
    simp only [Top.step] at hst
    split at hst
    · cases hst
    · next op rest hp =>
      cases hst
      exact h.applyNext hp hok

/-- In a run without operator removals and failed needed insertions, every blocked source is
covered by the map whenever no tick is in progress. -/
theorem blocked_covered (threshold window ttl : UInt32) (autoBlock : Bool) (b : LpmTrie)
    {steps : List TopStep} {s : Top}
    (hok : Run.Meets step Covers (start (create threshold window autoBlock ttl) b) steps)
    (hrun : Run.exec step (start (create threshold window autoBlock ttl) b) steps = some s)
    (hidle : s.pending = []) {ip : UInt32} (hb : s.tracker.Blocked ip) :
    Covered s.blacklist ip := by
  have h := Run.invariant (P := Covering) (fun _ _ _ h hok hst => h.step hok hst)
    ⟨fun ip ⟨_, h, _⟩ => (by cases h), fun ip h => (by cases h)⟩ hok hrun
  apply (h.covered ip hb).resolve_right
  rw [hidle]
  exact List.not_mem_nil

/-! ### A flood -/

/-- A flood is seen and blocked, and its entry is inserted. -/
def floodSteps : List TopStep :=
  [.processFlowSnapshot [flood 5000] 6, .tick 6, .applyNext true]

/-- The tracker after the snapshot and the tick of a flood. -/
def floodTracker : FlowTracker :=
  afterTick 6 ((create 1 1 true 1).processFlowSnapshot [flood 5000] 6)

theorem floodTracker_blocked : floodTracker.Blocked 5000 :=
  ⟨⟨3, 0, 5, 6, 1, true, true, 0⟩, by decide, rfl⟩

theorem exec_floodSteps (b : LpmTrie) :
    Run.exec step (start (create 1 1 true 1) b) floodSteps =
      some ⟨floodTracker, applyOp true b (.insert 5000), [], ∅⟩ := by
  have hb : toBlock 6 ((create 1 1 true 1).processFlowSnapshot [flood 5000] 6) = [5000] := by
    decide
  have hu : toUnblock 6 ((create 1 1 true 1).processFlowSnapshot [flood 5000] 6) = [] := by
    decide
  simp only [floodSteps, Run.exec_cons, Run.exec_nil, step, start, if_true, Option.bind_some, hb,
    hu]
  rfl

/-- A flood is covered as soon as its entry is inserted. -/
theorem flood_covered : ∃ s, Run.exec step (start (create 1 1 true 1) .empty) floodSteps = some s ∧
    Covered s.blacklist 5000 := by
  refine ⟨_, exec_floodSteps .empty, @blocked_covered 1 1 1 true .empty floodSteps _
    ⟨trivial, ?_⟩ (exec_floodSteps .empty) rfl 5000 floodTracker_blocked⟩
  rintro s ⟨⟩
  refine ⟨trivial, ?_⟩
  rintro s ⟨⟩
  exact ⟨fun ip rest _ => Or.inl ⟨rfl, Or.inr (by decide)⟩, fun _ _ => trivial⟩

/-! ### A full map -/

/-- The entries of the addresses below a bound. -/
def hostEntries (n : ℕ) : List (Block × (LpmKey × UInt8)) := (List.range n).map fun i =>
  ((hostKey (UInt32.ofNat i)).network, (hostKey (UInt32.ofNat i), 1))

theorem mem_hostEntries {m : ℕ} {e : Block × (LpmKey × UInt8)} (h : e ∈ hostEntries m) :
    ∃ i < m, e = ((hostKey (UInt32.ofNat i)).network, (hostKey (UInt32.ofNat i), 1)) := by
  rw [hostEntries, List.mem_map] at h
  obtain ⟨i, hi, rfl⟩ := h
  exact ⟨i, List.mem_range.mp hi, rfl⟩

theorem ofNat_inj_of_lt {i j : ℕ} (hi : i < 2 ^ 32) (hj : j < 2 ^ 32)
    (h : UInt32.ofNat i = UInt32.ofNat j) : i = j := by
  have hn := congrArg UInt32.toNat h
  rwa [UInt32.toNat_ofNat', UInt32.toNat_ofNat', Nat.mod_eq_of_lt hi, Nat.mod_eq_of_lt hj] at hn

/-- A map with the addresses below a bound. -/
def hostTrie (m : ℕ) (hm : m ≤ blacklistMaxEntries) : LpmTrie where
  table :=
    { entries := hostEntries m
      nodup := by
        rw [hostEntries, List.map_map]
        refine List.Nodup.map_on (fun i hi j hj he => ?_) List.nodup_range
        rw [List.mem_range] at hi hj
        rw [blacklistMaxEntries] at hm
        exact ofNat_inj_of_lt (by omega) (by omega) (hostKey_network_injective he) }
  keyed n e he := by
    obtain ⟨i, -, hi⟩ := mem_hostEntries he
    cases hi
    exact ⟨rfl, le_of_eq rfl⟩
  bounded := by simpa [Table.size, hostEntries] using hm

theorem mem_hostTrie {m : ℕ} {hm : m ≤ blacklistMaxEntries} {n : Block}
    (h : n ∈ (hostTrie m hm).networks) : ∃ i < m, n = (hostKey (UInt32.ofNat i)).network := by
  obtain ⟨e, he⟩ := Option.isSome_iff_exists.mp (Table.mem_keys_iff_isSome.mp h)
  obtain ⟨i, hi, hie⟩ := mem_hostEntries (Table.get?_eq_some_iff.mp he)
  exact ⟨i, hi, (Prod.mk.inj hie).1⟩

theorem not_covered_hostTrie {m : ℕ} (hm : m ≤ blacklistMaxEntries) {ip : UInt32}
    (hip : m ≤ ip.toNat) : ¬ Covered (hostTrie m hm) ip := by
  rintro ⟨n, hn, hin⟩
  obtain ⟨i, hi, rfl⟩ := mem_hostTrie hn
  have he := congrArg UInt32.toNat ((inNetwork_hostKey (UInt32.ofNat i) ip).mp hin)
  rw [blacklistMaxEntries] at hm
  rw [UInt32.toNat_ofNat', Nat.mod_eq_of_lt (by omega)] at he
  omega

/-- A full map takes no further address. -/
theorem update_hostTrie_full {m : ℕ} (hm : m = blacklistMaxEntries) {ip : UInt32}
    (hip : m ≤ ip.toNat) : (hostTrie m hm.le).update (hostKey ip) 1 = none := by
  rw [Option.eq_none_iff_forall_ne_some]
  intro u hu
  have hroom := (LpmTrie.update_isSome_iff (v := 1) (k := hostKey ip) (le_of_eq rfl)).mp
    (Option.isSome_of_eq_some hu)
  rcases hroom with hin | hlt
  · exact not_covered_hostTrie _ hip ⟨_, hin, (inNetwork_hostKey _ _).mpr rfl⟩
  · rw [LpmTrie.networks, Table.length_keys] at hlt
    simp only [hostTrie, Table.size, hostEntries, List.length_map, List.length_range] at hlt
    omega

/-- In a full map the entry of a blocked source is missing after the tick. -/
theorem blocked_not_covered : ∃ s,
    Run.exec step (start (create 1 1 true 1) (hostTrie blacklistMaxEntries le_rfl)) floodSteps =
      some s ∧ s.pending = [] ∧ s.tracker.Blocked 5000 ∧ ¬ Covered s.blacklist 5000 := by
  have hip : blacklistMaxEntries ≤ (5000 : UInt32).toNat := by
    have h5000 : (5000 : UInt32).toNat = 5000 := rfl
    rw [h5000, blacklistMaxEntries]
    omega
  have hb : applyOp true (hostTrie blacklistMaxEntries le_rfl) (.insert 5000) =
      hostTrie blacklistMaxEntries le_rfl := by
    simp only [applyOp, tryUpdate, if_true, update_hostTrie_full rfl hip, Option.getD_none]
  refine ⟨_, exec_floodSteps _, rfl, floodTracker_blocked, ?_⟩
  rw [hb]
  exact not_covered_hostTrie le_rfl hip

end KWatch.Top
