import KWatch.Xdp.Calls

/-! # Counting on several processors

Processors count packets in parallel, each access one step. A processor that finds no counter
inserts one, and its insertion has no effect when another processor has inserted the counter since:
exactly these counts are lost.
-/

namespace KWatch

/-- The counting of several packets on one processor. -/
def countPackets : List UInt32 → XdpProg Unit
  | [] => pure ()
  | proto :: protos => do
    Calls.incCount proto
    countPackets protos

/-- The processors and the maps they share. -/
abbrev Cpus (ι : Type) := Config ι XdpCall XdpCall.Result Maps Unit

/-- Processors that are about to count their packets. -/
def countInParallel {ι : Type} (packets : ι → List UInt32) (m : Maps) : Cpus ι :=
  ⟨fun i => countPackets (packets i), m⟩

/-- The value of a counter; a counter that is not stored is 0. -/
def countOf (m : Maps) (k : UInt32) : UInt64 := (m.pktCounts.get? k).getD 0

/-- An insertion of a counter that is not stored finds room. -/
def HasRoom : XdpCall → Maps → Prop
  | .insertCount k, m => k ∈ m.pktCounts.keys ∨ m.pktCounts.size < pktCountsMaxEntries
  | _, _ => True

/-- An insertion of a counter finds it absent. -/
def InsertsNew : XdpCall → Maps → Prop
  | .insertCount k, m => k ∉ m.pktCounts.keys
  | _, _ => True

instance (c : XdpCall) (m : Maps) : Decidable (HasRoom c m) := by
  cases c <;> unfold HasRoom <;> infer_instance

instance (c : XdpCall) (m : Maps) : Decidable (InsertsNew c m) := by
  cases c <;> unfold InsertsNew <;> infer_instance

section Parallel

variable {ι : Type} [DecidableEq ι] (h : Helpers)

/-- The count that an access loses: an insertion of a counter that is stored already. -/
def lossOf (k : UInt32) : XdpCall → Maps → ℕ
  | .insertCount k', m => if k' = k ∧ k ∈ m.pktCounts.keys then 1 else 0
  | _, _ => 0

def losesCount (k : UInt32) (c : Cpus ι) (i : ι) : ℕ :=
  match c.progs i with
  | .ret _ => 0
  | .call op _ => lossOf k op c.shared

/-- The insertions of a run that found their counter stored. -/
def lostCounts (k : UInt32) (c : Cpus ι) (sched : List ι) : ℕ :=
  Run.tally (Config.step (xdpSys h)) (losesCount k) c sched

/-! ### One processor -/

/-- What a program still has to count. A pending addition has found its counter. -/
inductive Remaining (m : Maps) : XdpProg Unit → List UInt32 → Prop
  | start (ks) : Remaining m (countPackets ks) ks
  | add (k ks) (hk : k ∈ m.pktCounts.keys) :
    Remaining m (.call (.addCount k) fun _ => countPackets ks) (k :: ks)
  | insert (k ks) : Remaining m (.call (.insertCount k) fun _ => countPackets ks) (k :: ks)

theorem Remaining.mono {m m' : Maps} (hkeys : ∀ k ∈ m.pktCounts.keys, k ∈ m'.pktCounts.keys)
    {p : XdpProg Unit} {ks : List UInt32} (hp : Remaining m p ks) : Remaining m' p ks := by
  cases hp with
  | start ks => exact .start ks
  | add k ks hk => exact .add k ks (hkeys k hk)
  | insert k ks => exact .insert k ks

theorem Remaining.ret {m : Maps} {ks : List UInt32} (hp : Remaining m (.ret ()) ks) : ks = [] := by
  generalize he : (Prog.ret () : XdpProg Unit) = p at hp
  cases hp with
  | start ks =>
    cases ks with
    | nil => rfl
    | cons k ks => cases he
  | add k ks hk => cases he
  | insert k ks => cases he

theorem countOf_addCount {m : Maps} {k : UInt32} (hk : k ∈ m.pktCounts.keys) (k' : UInt32) :
    countOf (xdpSys h (.addCount k) m).2 k' = countOf m k' + if k' = k then 1 else 0 := by
  obtain ⟨cnt, hcnt⟩ := Option.isSome_iff_exists.mp (Table.mem_keys_iff_isSome.mp hk)
  simp only [xdpSys, hcnt, countOf, Table.get?_set]
  by_cases he : k' = k
  · subst he
    simp [hcnt]
  · simp [he]

theorem countOf_insertCount {m : Maps} {k : UInt32}
    (hroom : k ∈ m.pktCounts.keys ∨ m.pktCounts.size < pktCountsMaxEntries) (k' : UInt32) :
    countOf (xdpSys h (.insertCount k) m).2 k' =
      countOf m k' + if k' = k ∧ k ∉ m.pktCounts.keys then 1 else 0 := by
  by_cases hk : k ∈ m.pktCounts.keys
  · simp [xdpSys, Table.putNew, hk]
  · have hput : m.pktCounts.putNew pktCountsMaxEntries k 1 = some (m.pktCounts.set k 1) :=
      Table.putNew_eq_some_iff.mpr ⟨hk, hroom.resolve_left hk, rfl⟩
    simp only [xdpSys, hput, countOf, Table.get?_set]
    by_cases he : k' = k
    · subst he
      simp [Table.get?_eq_none_iff.mpr hk, hk]
    · simp [he]

@[simp] theorem pktCounts_storeFlow (key : KwatchFlowKey) (g : KwatchFlowStats → KwatchFlowStats)
    (m : Maps) : (m.storeFlow key g).pktCounts = m.pktCounts := by
  unfold Maps.storeFlow
  split <;> rfl

/-- No access removes a counter. -/
theorem keys_xdpSys {m : Maps} (op : XdpCall) {k : UInt32} (hk : k ∈ m.pktCounts.keys) :
    k ∈ (xdpSys h op m).2.pktCounts.keys := by
  cases op with
  | addCount proto =>
    simp only [xdpSys]
    split
    · exact Table.mem_keys_set.mpr (Or.inr hk)
    · exact hk
  | insertCount proto =>
    simp only [xdpSys]
    split
    · next hput =>
      obtain ⟨-, -, rfl⟩ := Table.putNew_eq_some_iff.mp hput
      exact Table.mem_keys_set.mpr (Or.inr hk)
    · exact hk
  | insertFlow key stats =>
    simp only [xdpSys]
    split <;> exact hk
  | restartFlow | touchFlow | addSyn | addAck =>
    simp only [xdpSys, pktCounts_storeFlow]
    exact hk
  | _ => exact hk

theorem toNat_add_modEq (a b : UInt64) : (a + b).toNat ≡ a.toNat + b.toNat [MOD 2 ^ 64] := by
  rw [UInt64.toNat_add]
  exact Nat.mod_modEq _ _

/-- An access takes from what is left to count as much as it adds to the counter or loses. -/
theorem Remaining.access {m : Maps} {op : XdpCall} {cont : op.Result → XdpProg Unit}
    {ks : List UInt32} (hp : Remaining m (.call op cont) ks) (hroom : HasRoom op m) :
    ∃ ks', Remaining (xdpSys h op m).2 (cont (xdpSys h op m).1) ks' ∧ ∀ k,
      (countOf (xdpSys h op m).2 k).toNat + ks'.count k + lossOf k op m ≡
        (countOf m k).toNat + ks.count k [MOD 2 ^ 64] := by
  generalize he : Prog.call op cont = p at hp
  cases hp with
  | start ks =>
    cases ks with
    | nil => cases he
    | cons k ks =>
      simp only [countPackets, Calls.incCount, KWatch.access, Prog.step_bind, Prog.call_bind] at he
      cases he
      refine ⟨k :: ks, ?_, fun k' => Nat.ModEq.refl _⟩
      cases hget : (m.pktCounts.get? k).isSome with
      | true =>
        simp only [xdpSys, hget]
        exact .add k ks (Table.mem_keys_iff_isSome.mpr hget)
      | false =>
        simp only [xdpSys, hget]
        exact .insert k ks
  | add k ks hk =>
    cases he
    refine ⟨ks, .start ks, fun k' => ?_⟩
    have hadd := toNat_add_modEq (countOf m k') (if k' = k then 1 else 0)
    rw [countOf_addCount h hk, List.count_cons]
    by_cases hkk : k' = k
    · subst hkk
      simpa [lossOf, add_right_comm, add_assoc] using hadd.add_right (ks.count k')
    · simp [lossOf, hkk, Ne.symm hkk, Nat.ModEq.refl]
  | insert k ks =>
    cases he
    refine ⟨ks, .start ks, fun k' => ?_⟩
    have hadd := toNat_add_modEq (countOf m k') (if k' = k ∧ k ∉ m.pktCounts.keys then 1 else 0)
    rw [countOf_insertCount h hroom, List.count_cons]
    by_cases hkk : k' = k
    · subst hkk
      by_cases hm : k' ∈ m.pktCounts.keys
      · simp [lossOf, hm, add_assoc, Nat.ModEq.refl]
      · simpa [lossOf, hm, add_right_comm, add_assoc] using hadd.add_right (ks.count k')
    · simp [lossOf, hkk, Ne.symm hkk, Nat.ModEq.refl]

/-! ### All processors -/

variable [Fintype ι] {h}

theorem sum_update_count (rem : ι → List UInt32) (i : ι) (ks : List UInt32) (k : UInt32) :
    ∑ j, (Function.update rem i ks j).count k + (rem i).count k =
      ∑ j, (rem j).count k + ks.count k := by
  have hsum := Finset.add_sum_erase Finset.univ (fun j => (rem j).count k) (Finset.mem_univ i)
  have hsum' := Finset.add_sum_erase Finset.univ (fun j => (Function.update rem i ks j).count k)
    (Finset.mem_univ i)
  have hrest : ∑ j ∈ Finset.univ.erase i, (Function.update rem i ks j).count k =
      ∑ j ∈ Finset.univ.erase i, (rem j).count k := by
    apply Finset.sum_congr rfl
    intro j hj
    rw [Function.update_of_ne (Finset.ne_of_mem_erase hj)]
  simp only [Function.update_self, hrest] at hsum'
  omega

/-- A step of one processor moves a count from what is left to the counter, or loses it. -/
theorem remaining_step {c c' : Cpus ι} {rem : ι → List UInt32} {i : ι}
    (hc : ∀ i, Remaining c.shared (c.progs i) (rem i))
    (hroom : Config.CallMeets (fun _ => HasRoom) c i) (hstep : c.step (xdpSys h) i = some c')
    (k : UInt32) : ∃ rem' : ι → List UInt32, (∀ i, Remaining c'.shared (c'.progs i) (rem' i)) ∧
      (countOf c'.shared k).toNat + ∑ j, (rem' j).count k + losesCount k c i ≡
        (countOf c.shared k).toNat + ∑ j, (rem j).count k [MOD 2 ^ 64] := by
  have hi := hc i
  simp only [Config.step, Config.CallMeets, losesCount] at hstep hroom ⊢
  cases hp : c.progs i with
  | ret a => simp [hp] at hstep
  | call op cont =>
    simp only [hp, Option.some.injEq] at hstep hroom ⊢
    subst hstep
    rw [hp] at hi
    obtain ⟨ks, hks, hcount⟩ := hi.access h hroom
    refine ⟨Function.update rem i ks, fun j => ?_, ?_⟩
    · by_cases hj : j = i
      · subst hj
        simpa using hks
      · simp only [Function.update_of_ne hj]
        exact (hc j).mono fun k hk => keys_xdpSys h op hk
    · have hsum := sum_update_count rem i ks k
      have hcount := hcount k
      generalize 2 ^ 64 = n at hcount ⊢
      apply Nat.ModEq.add_right_cancel' ((rem i).count k)
      calc (countOf (xdpSys h op c.shared).2 k).toNat +
            ∑ j, (Function.update rem i ks j).count k + lossOf k op c.shared + (rem i).count k
          = (countOf (xdpSys h op c.shared).2 k).toNat + ks.count k + lossOf k op c.shared +
              ∑ j, (rem j).count k := by omega
        _ ≡ (countOf c.shared k).toNat + (rem i).count k + ∑ j, (rem j).count k [MOD n] :=
            hcount.add_right _
        _ = (countOf c.shared k).toNat + ∑ j, (rem j).count k + (rem i).count k := by omega

/-- In a run that has finished, the counters and the lost counts make up all packets. -/
theorem count_add_lost {packets : ι → List UInt32} {m : Maps} {sched : List ι} {c' : Cpus ι}
    (hroom : Run.Meets (Config.step (xdpSys h)) (Config.CallMeets fun _ => HasRoom)
      (countInParallel packets m) sched)
    (hrun : Run.exec (Config.step (xdpSys h)) (countInParallel packets m) sched = some c')
    (hdone : ∀ i, c'.progs i = .ret ()) (k : UInt32) :
    (countOf c'.shared k).toNat + lostCounts h k (countInParallel packets m) sched ≡
      (countOf m k).toNat + ∑ i, (packets i).count k [MOD 2 ^ 64] := by
  obtain ⟨rem, hrem, hq⟩ := Run.conserved
    (I := fun (c : Cpus ι) (rem : ι → List UInt32) => ∀ i, Remaining c.shared (c.progs i) (rem i))
    (q := fun c rem => (countOf c.shared k).toNat + ∑ i, (rem i).count k) (w := losesCount k)
    (fun c rem i c' hc hok hstep => remaining_step hc hok hstep k)
    (fun i => Remaining.start (packets i)) hroom hrun
  have hnil : ∀ i, rem i = [] := fun i => ((hdone i) ▸ hrem i).ret
  simpa [hnil, lostCounts, countInParallel] using hq

theorem eq_add_ofNat_iff {a b : UInt64} {n : ℕ} :
    a = b + UInt64.ofNat n ↔ a.toNat ≡ b.toNat + n [MOD 2 ^ 64] := by
  rw [← UInt64.toNat_inj, UInt64.toNat_add, UInt64.toNat_ofNat', Nat.add_mod_mod]
  constructor
  · intro hn
    rw [hn]
    exact Nat.mod_modEq _ _
  · intro hn
    rw [← hn, Nat.mod_eq_of_lt a.toNat_lt]

/-- When all processors have finished, every counter has grown by the packets counted under it if
no insertion found its counter stored, and in general if and only if, modulo 2⁶⁴, no counter has
lost an insertion. -/
theorem counts_exact_iff {packets : ι → List UInt32} {m : Maps} {sched : List ι} {c' : Cpus ι}
    (hroom : Run.Meets (Config.step (xdpSys h)) (Config.CallMeets fun _ => HasRoom)
      (countInParallel packets m) sched)
    (hrun : Run.exec (Config.step (xdpSys h)) (countInParallel packets m) sched = some c')
    (hdone : ∀ i, c'.progs i = .ret ()) :
    (Run.Meets (Config.step (xdpSys h)) (Config.CallMeets fun _ => InsertsNew)
        (countInParallel packets m) sched →
      ∀ k, countOf c'.shared k = countOf m k + UInt64.ofNat (∑ i, (packets i).count k)) ∧
    ((∀ k, countOf c'.shared k = countOf m k + UInt64.ofNat (∑ i, (packets i).count k)) ↔
      ∀ k, 2 ^ 64 ∣ lostCounts h k (countInParallel packets m) sched) := by
  have hlaw (k : UInt32) := count_add_lost hroom hrun hdone k
  have hiff (k : UInt32) :
      countOf c'.shared k = countOf m k + UInt64.ofNat (∑ i, (packets i).count k) ↔
        2 ^ 64 ∣ lostCounts h k (countInParallel packets m) sched := by
    rw [eq_add_ofNat_iff, ← Nat.modEq_zero_iff_dvd]
    constructor
    · intro heq
      have := (hlaw k).trans heq.symm
      exact Nat.ModEq.add_left_cancel' _ this
    · intro hlost
      have := (hlost.symm.add_left (countOf c'.shared k).toNat).trans (hlaw k)
      exact this
  constructor
  · intro hnew k
    rw [hiff]
    have hzero : lostCounts h k (countInParallel packets m) sched = 0 := by
      refine Run.tally_eq_zero (fun c i hok => ?_) hnew
      simp only [Config.CallMeets, losesCount] at hok ⊢
      cases hp : c.progs i with
      | ret a => rfl
      | call op cont =>
        simp only [hp] at hok ⊢
        cases op with
        | insertCount k' =>
          simp only [InsertsNew, lossOf] at hok ⊢
          rw [if_neg]
          rintro ⟨rfl, hk⟩
          exact hok hk
        | _ => rfl
    rw [hzero]
    exact dvd_zero _
  · exact forall_congr' hiff

end Parallel

/-! ### Two first packets -/

/-- Two processors that each count one TCP packet in empty maps. -/
def twoFirstPackets : Cpus (Fin 2) := countInParallel (fun _ => [6]) .empty

def quietHelpers : Helpers := ⟨0, 0, 0, false, []⟩

/-- One processor after the other. -/
theorem counts_exact_in_turn : ∃ c',
    Run.exec (Config.step (xdpSys quietHelpers)) twoFirstPackets [0, 0, 1, 1] = some c' ∧
      countOf c'.shared 6 = 2 := by
  refine ⟨_, rfl, ?_⟩
  have hroom : Run.Meets (Config.step (xdpSys quietHelpers)) (Config.CallMeets fun _ => HasRoom)
      twoFirstPackets [0, 0, 1, 1] := by decide +kernel
  have hnew : Run.Meets (Config.step (xdpSys quietHelpers)) (Config.CallMeets fun _ => InsertsNew)
      twoFirstPackets [0, 0, 1, 1] := by decide +kernel
  exact (counts_exact_iff hroom rfl (Fin.forall_fin_two.mpr ⟨rfl, rfl⟩)).1 hnew 6

/-- Both look for the counter before either inserts it, and one of the two packets is lost. -/
theorem count_lost : ∃ c',
    Run.exec (Config.step (xdpSys quietHelpers)) twoFirstPackets [0, 1, 0, 1] = some c' ∧
      Run.Meets (Config.step (xdpSys quietHelpers)) (Config.CallMeets fun _ => HasRoom)
        twoFirstPackets [0, 1, 0, 1] ∧
      (∀ i, c'.progs i = .ret ()) ∧
      countOf c'.shared 6 ≠ countOf twoFirstPackets.shared 6 +
        UInt64.ofNat (∑ _ : Fin 2, [(6 : UInt32)].count 6) := by
  refine ⟨_, rfl, by decide +kernel, Fin.forall_fin_two.mpr ⟨rfl, rfl⟩, ?_⟩
  decide +kernel

end KWatch
