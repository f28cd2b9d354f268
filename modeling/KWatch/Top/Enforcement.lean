import KWatch.Cli.EndToEnd
import KWatch.Top.Coverage

/-! # What the packet program enforces

The map follows the tracker one operation at a time, and the operator changes it in between. Seen
through the operations that still wait, it holds the operator's networks and the blocked sources
at every moment, so between two ticks the packet program drops exactly their frames.
-/

namespace KWatch

namespace Top

open FlowTracker

/-- What an operation that succeeds does to the networks. -/
def onSet (b : Finset Block) : MapOp → Finset Block
  | .insert ip => insert (hostKey ip).network b
  | .remove ip => b.erase (hostKey ip).network

/-- The networks once the waiting operations have been applied. -/
def planned (s : Top) : Finset Block :=
  s.pending.foldl onSet s.blacklist.networks.toFinset

/-- The map takes a new entry only while it has room for it. -/
def Succeeds (ok : Bool) (t : LpmTrie) : MapOp → Prop
  | .insert ip => (hostKey ip).network ∈ t.networks ∨
      (ok = true ∧ t.networks.length < blacklistMaxEntries)
  | .remove ip => ok = true ∨ (hostKey ip).network ∉ t.networks

/-- The steps by which neither the operator nor a release touches an entry of the other, and the
map operations succeed. -/
def Calm (s : Top) : TopStep → Prop
  | .operatorBlock k _ => ∀ ip, MapOp.remove ip ∈ s.pending → k.network ≠ (hostKey ip).network
  | .operatorUnblock k ok => (ok = true ∨ k.network ∉ s.operator) ∧
      ∀ ip, s.tracker.Blocked ip ∨ MapOp.insert ip ∈ s.pending →
        k.network ≠ (hostKey ip).network
  | .tick now => ∀ ip, Due s.tracker now ip → (hostKey ip).network ∉ s.operator
  | .applyNext ok => ∀ op rest, s.pending = op :: rest → Succeeds ok s.blacklist op
  | _ => True

/-- The networks that are meant to be in the map. -/
def Meant (s : Top) (n : Block) : Prop :=
  n ∈ s.operator ∨ ∃ ip, s.tracker.Blocked ip ∧ n = (hostKey ip).network

/-- Once the waiting operations are applied, the map holds what it is meant to hold. -/
def Enforces (s : Top) : Prop := ∀ n, n ∈ s.planned ↔ s.Meant n

/-! ### The waiting operations -/

theorem onSet_insert {op : MapOp} {n : Block} (b : Finset Block)
    (h : ∀ ip, op = .remove ip → n ≠ (hostKey ip).network) :
    onSet (insert n b) op = insert n (onSet b op) := by
  cases op with
  | insert ip => exact Finset.insert_comm _ _ _
  | remove ip => exact Finset.erase_insert_of_ne (h ip rfl)

theorem onSet_erase {op : MapOp} {n : Block} (b : Finset Block)
    (h : ∀ ip, op = .insert ip → n ≠ (hostKey ip).network) :
    onSet (b.erase n) op = (onSet b op).erase n := by
  cases op with
  | insert ip => exact (Finset.erase_insert_of_ne (h ip rfl).symm).symm
  | remove ip => exact Finset.erase_right_comm

/-- A new entry that no waiting operation removes outlasts them. -/
theorem foldl_onSet_insert {ops : List MapOp} {n : Block} (b : Finset Block)
    (h : ∀ ip, MapOp.remove ip ∈ ops → n ≠ (hostKey ip).network) :
    ops.foldl onSet (insert n b) = insert n (ops.foldl onSet b) := by
  induction ops generalizing b with
  | nil => rfl
  | cons op ops ih =>
    have hop : onSet (insert n b) op = insert n (onSet b op) := by
      apply onSet_insert
      rintro ip rfl
      exact h ip List.mem_cons_self
    rw [List.foldl_cons, List.foldl_cons, hop]
    exact ih _ fun ip hip => h ip (List.mem_cons_of_mem _ hip)

/-- An entry that is taken out stays out unless a waiting operation brings it back. -/
theorem foldl_onSet_erase {ops : List MapOp} {n : Block} (b : Finset Block)
    (h : ∀ ip, MapOp.insert ip ∈ ops → n ≠ (hostKey ip).network) :
    ops.foldl onSet (b.erase n) = (ops.foldl onSet b).erase n := by
  induction ops generalizing b with
  | nil => rfl
  | cons op ops ih =>
    have hop : onSet (b.erase n) op = (onSet b op).erase n := by
      apply onSet_erase
      rintro ip rfl
      exact h ip List.mem_cons_self
    rw [List.foldl_cons, List.foldl_cons, hop]
    exact ih _ fun ip hip => h ip (List.mem_cons_of_mem _ hip)

theorem mem_foldl_insert (ips : List UInt32) (b : Finset Block) {n : Block} :
    n ∈ (ips.map MapOp.insert).foldl onSet b ↔
      n ∈ b ∨ ∃ ip ∈ ips, n = (hostKey ip).network := by
  induction ips generalizing b with
  | nil => simp
  | cons ip ips ih =>
    rw [List.map_cons, List.foldl_cons, ih, onSet, Finset.mem_insert, List.exists_mem_cons_iff,
      or_comm (a := n = (hostKey ip).network), or_assoc]

theorem mem_foldl_remove (ips : List UInt32) (b : Finset Block) {n : Block} :
    n ∈ (ips.map MapOp.remove).foldl onSet b ↔
      n ∈ b ∧ ∀ ip ∈ ips, n ≠ (hostKey ip).network := by
  induction ips generalizing b with
  | nil => simp
  | cons ip ips ih =>
    rw [List.map_cons, List.foldl_cons, ih, onSet, Finset.mem_erase, List.forall_mem_cons,
      and_comm (a := n ≠ (hostKey ip).network), and_assoc]

/-! ### The map operations -/

theorem toFinset_tryUpdate {ok : Bool} {t u : LpmTrie} {k : LpmKey}
    (h : tryUpdate ok t k = some u) :
    u.networks.toFinset = insert k.network t.networks.toFinset := by
  ext n
  rw [List.mem_toFinset, Finset.mem_insert, List.mem_toFinset]
  exact mem_networks_tryUpdate h

theorem toFinset_tryDelete {ok : Bool} {t : LpmTrie} {k : LpmKey}
    (h : ok = true ∨ k.network ∉ t.networks) :
    ((tryDelete ok t k).getD t).networks.toFinset = t.networks.toFinset.erase k.network := by
  cases hu : tryDelete ok t k with
  | some u =>
    ext n
    rw [Option.getD_some, List.mem_toFinset, Finset.mem_erase, List.mem_toFinset]
    cases ok with
    | false => cases hu
    | true => exact LpmTrie.mem_networks_delete hu
  | none =>
    have hout : k.network ∉ t.networks := by
      rcases h with rfl | hout
      · rw [tryDelete, if_pos rfl] at hu
        rw [← LpmTrie.delete_isSome_iff, hu]
        rintro ⟨⟩
      · exact hout
    rw [Option.getD_none, Finset.erase_eq_of_notMem (by rwa [List.mem_toFinset])]

/-- An update that fails changes nothing, so the entry has to be there already. -/
theorem mem_networks_of_tryUpdate_none {ok : Bool} {t : LpmTrie} {ip : UInt32}
    (h : Succeeds ok t (.insert ip)) (hu : tryUpdate ok t (hostKey ip) = none) :
    (hostKey ip).network ∈ t.networks := by
  rcases h with hin | ⟨rfl, hroom⟩
  · exact hin
  · have hlen : (hostKey ip).prefixlen.toNat ≤ 32 := le_of_eq rfl
    have hsome := (LpmTrie.update_isSome_iff (v := 1) hlen).mpr (Or.inr hroom)
    rw [tryUpdate, if_pos rfl] at hu
    rw [hu] at hsome
    cases hsome

/-- An operation that succeeds. -/
theorem networks_applyOp {ok : Bool} {t : LpmTrie} {op : MapOp} (h : Succeeds ok t op) :
    (applyOp ok t op).networks.toFinset = onSet t.networks.toFinset op := by
  cases op with
  | insert ip =>
    rw [applyOp, onSet]
    cases hu : tryUpdate ok t (hostKey ip) with
    | some u => exact toFinset_tryUpdate hu
    | none =>
      have hin := mem_networks_of_tryUpdate_none h hu
      rw [Option.getD_none, Finset.insert_eq_of_mem (by rwa [List.mem_toFinset])]
  | remove ip => exact toFinset_tryDelete h

/-! ### Steps -/

/-- A tracker call that keeps every block keeps the enforcement. -/
theorem Enforces.silent {s : Top} (h : s.Enforces) {t : FlowTracker}
    (hk : ∀ ip, KeepsBlock (s.tracker.ipStats.get? ip) (t.ipStats.get? ip)) :
    Enforces { s with tracker := t } := by
  intro n
  apply (h n).trans
  simp only [Meant, KeepsBlock.blocked_iff (hk _)]

theorem Enforces.operatorBlock {s : Top} (h : s.Enforces) {k : LpmKey} {ok : Bool} {b : LpmTrie}
    (hb : tryUpdate ok s.blacklist k = some b)
    (hok : ∀ ip, MapOp.remove ip ∈ s.pending → k.network ≠ (hostKey ip).network) :
    Enforces { s with blacklist := b, operator := insert k.network s.operator } := by
  intro n
  have hn := h n
  rw [planned] at hn
  simp only [planned, Meant, toFinset_tryUpdate hb, foldl_onSet_insert _ hok, Finset.mem_insert, hn]
  exact or_assoc.symm

theorem Enforces.operatorUnblock {s : Top} (h : s.Enforces) {k : LpmKey} {ok : Bool}
    (hok : s.Calm (.operatorUnblock k ok)) :
    Enforces { s with
      blacklist := (tryDelete ok s.blacklist k).getD s.blacklist
      operator := s.operator.erase k.network } := by
  obtain ⟨hdone, hauto⟩ := hok
  have hfree : ∀ ip, MapOp.insert ip ∈ s.pending → k.network ≠ (hostKey ip).network :=
    fun ip hip => hauto ip (Or.inr hip)
  have hblocked : ¬ ∃ ip, s.tracker.Blocked ip ∧ k.network = (hostKey ip).network := by
    rintro ⟨ip, hb, he⟩
    exact hauto ip (Or.inl hb) he
  -- nothing but the operator's own network is taken out of the plan
  have hplan : (s.pending.foldl onSet
      ((tryDelete ok s.blacklist k).getD s.blacklist).networks.toFinset) =
        s.planned.erase k.network := by
    cases ok with
    | true => rw [toFinset_tryDelete (Or.inl rfl), foldl_onSet_erase _ hfree, planned]
    | false =>
      have hnot : k.network ∉ s.planned := by
        rw [h k.network, Meant, not_or]
        exact ⟨hdone.resolve_left Bool.false_ne_true, hblocked⟩
      rw [Finset.erase_eq_of_notMem hnot]
      rfl
  intro n
  simp only [planned, Meant] at hplan ⊢
  rw [hplan, Finset.mem_erase, Finset.mem_erase]
  have hn := h n
  rw [planned, Meant] at hn
  rw [hn]
  by_cases he : n = k.network
  · subst he
    simp [hblocked]
  · simp [he]

theorem Enforces.tick {s : Top} (h : s.Enforces) (hp : s.pending = []) {now : UInt64}
    (hok : s.Calm (.tick now)) :
    Enforces { s with
      tracker := afterTick now s.tracker
      pending :=
        (toBlock now s.tracker).map .insert ++ (toUnblock now s.tracker).map .remove } := by
  intro n
  have hn := h n
  rw [planned, hp, List.foldl_nil] at hn
  simp only [planned, Meant, List.foldl_append, mem_foldl_remove, mem_foldl_insert, hn,
    blocked_afterTick]
  constructor
  · rintro ⟨(hop | ⟨ip, hb, rfl⟩) | ⟨ip, hb, rfl⟩, hout⟩
    · exact Or.inl hop
    · exact Or.inr ⟨ip, ⟨fun hx => hout ip hx rfl, Or.inr hb⟩, rfl⟩
    · exact Or.inr ⟨ip, ⟨fun hx => hout ip hx rfl, Or.inl hb⟩, rfl⟩
  · rintro (hop | ⟨ip, ⟨hx, hb⟩, rfl⟩)
    · refine ⟨Or.inl (Or.inl hop), ?_⟩
      rintro ip hip rfl
      exact hok ip (mem_toUnblock.mp hip) hop
    · refine ⟨?_, ?_⟩
      · rcases hb with hnew | hold
        · exact Or.inr ⟨ip, hnew, rfl⟩
        · exact Or.inl (Or.inr ⟨ip, hold, rfl⟩)
      · rintro ip' hip' he
        obtain rfl := hostKey_network_injective he
        exact hx hip'

theorem Enforces.step {s s' : Top} {st : TopStep} (h : s.Enforces) (hok : s.Calm st)
    (hst : s.step st = some s') : s'.Enforces := by
  cases st with
  | operatorBlock k ok =>
    simp only [Top.step] at hst
    split at hst
    · cases hst
      exact h
    · rename_i b hb
      cases hst
      exact h.operatorBlock hb hok
  | operatorUnblock k ok =>
    cases hst
    exact h.operatorUnblock hok
  | processEvent e =>
    simp only [Top.step, Option.ite_none_right_eq_some, Option.some.injEq] at hst
    obtain ⟨-, rfl⟩ := hst
    exact h.silent fun ip => processEvent_keepsBlock e s.tracker ip
  | processFlowSnapshot entries now =>
    simp only [Top.step, Option.ite_none_right_eq_some, Option.some.injEq] at hst
    obtain ⟨-, rfl⟩ := hst
    apply h.silent
    intro ip
    rw [processFlowSnapshot_get?]
    exact nextStats_keepsBlock ..
  | tick now =>
    simp only [Top.step, Option.ite_none_right_eq_some, Option.some.injEq] at hst
    obtain ⟨hp, rfl⟩ := hst
    exact h.tick hp hok
  | applyNext ok =>
    simp only [Top.step] at hst
    split at hst
    · cases hst
    · rename_i op rest hp
      cases hst
      intro n
      have hn := h n
      rw [planned, hp, List.foldl_cons] at hn
      rw [planned, networks_applyOp (hok op rest hp)]
      exact hn

theorem enforces_run {t : FlowTracker} {steps : List TopStep} {s : Top}
    (hfresh : ∀ ip, ¬ t.Blocked ip) (hok : Run.Meets step Calm (start t .empty) steps)
    (hrun : Run.exec step (start t .empty) steps = some s) : s.Enforces := by
  apply Run.invariant (P := Enforces) (fun _ _ _ h hok hst => h.step hok hst) _ hok hrun
  intro n
  simp [planned, Meant, start, hfresh]

/-! ### Verdicts -/

theorem not_blocked_create (threshold window ttl : UInt32) (autoBlock : Bool) (ip : UInt32) :
    ¬ (create threshold window autoBlock ttl).Blocked ip := by
  rintro ⟨st, hst, -⟩
  cases hst

/-- In a calm run from an empty map, whenever no tick is in progress, the packet program drops
exactly the complete IPv4 frames whose source is blocked by the tracker or lies in a network that
the operator blocked and did not unblock since. -/
theorem drops_exactly (threshold window ttl : UInt32) (autoBlock : Bool) {steps : List TopStep}
    {s : Top}
    (hok : Run.Meets step Calm (start (create threshold window autoBlock ttl) .empty) steps)
    (hrun : Run.exec step (start (create threshold window autoBlock ttl) .empty) steps = some s)
    (hidle : s.pending = []) (cfg : KwatchRuntimeConfig) (h : Helpers) (f : Frame) (m : Maps)
    (hm : m.blacklist = s.blacklist) :
    ∃ r, xdpKwatchProg cfg h f m = some r ∧ (r.1 = .XDP_DROP ↔
      ∃ F : Ipv4Frame, F.encode = f ∧
        (s.tracker.Blocked F.ip.saddr ∨ ∃ n ∈ s.operator, InNetwork F.ip.saddr n)) := by
  have henf := enforces_run (not_blocked_create threshold window ttl autoBlock) hok hrun
  have hnet : ∀ n, n ∈ s.blacklist.networks ↔ s.Meant n := by
    intro n
    rw [← henf n, planned, hidle, List.foldl_nil, List.mem_toFinset]
  obtain ⟨r, hr, hdrop⟩ := verdict_iff cfg h f m
  refine ⟨r, hr, hdrop.trans ?_⟩
  rw [hm]
  constructor
  · rintro ⟨F, rfl, n, hn, hin⟩
    refine ⟨F, rfl, ?_⟩
    rcases (hnet n).mp hn with hop | ⟨ip, hb, rfl⟩
    · exact Or.inr ⟨n, hop, hin⟩
    · rw [(inNetwork_hostKey ip F.ip.saddr).mp hin]
      exact Or.inl hb
  · rintro ⟨F, rfl, hb | ⟨n, hop, hin⟩⟩
    · exact ⟨F, rfl, (hostKey F.ip.saddr).network, (hnet _).mpr (Or.inr ⟨_, hb, rfl⟩),
        (inNetwork_hostKey _ _).mpr rfl⟩
    · exact ⟨F, rfl, n, (hnet n).mpr (Or.inl hop), hin⟩

/-- The operator blocks a network, and a flood from elsewhere is blocked after it. -/
def networkThenFlood : List TopStep := .operatorBlock ⟨8, 10⟩ true :: floodSteps

/-- A frame is dropped for its network, for its source, or not at all. -/
theorem drops_exactly_flood : ∃ s,
    Run.exec step (start (create 1 1 true 1) .empty) networkThenFlood = some s ∧
      ∀ cfg h f m, m.blacklist = s.blacklist → ∃ r, xdpKwatchProg cfg h f m = some r ∧
        (r.1 = .XDP_DROP ↔ ∃ F : Ipv4Frame, F.encode = f ∧
          (s.tracker.Blocked F.ip.saddr ∨ ∃ n ∈ s.operator, InNetwork F.ip.saddr n)) := by
  refine ⟨_, rfl, ?_⟩
  apply @drops_exactly 1 1 1 true networkThenFlood _ _ rfl rfl
  refine ⟨by rintro ip ⟨⟩, ?_⟩
  rintro s ⟨⟩
  refine ⟨trivial, ?_⟩
  rintro s ⟨⟩
  constructor
  · rintro ip - hop
    cases congrArg Block.len (Finset.mem_singleton.mp hop)
  · rintro s ⟨⟩
    exact ⟨fun op rest hp => by cases hp; exact Or.inr ⟨rfl, by decide⟩, fun _ _ => trivial⟩

end Top

end KWatch
