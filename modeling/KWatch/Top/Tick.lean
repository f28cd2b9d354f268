import KWatch.Library.Run
import KWatch.Maps.Blacklist
import KWatch.Tracker.Blocks

/-! # Ticks of the dashboard

The dashboard owns the tracker; the blacklist map is shared with the operator, who can change it
between any two map operations. A tick asks the tracker for addresses and then applies their
map operations one by one, ignoring the results.
-/

namespace KWatch

/-- A map operation of the tick in progress. -/
inductive MapOp where
  | insert (ip : UInt32)
  | remove (ip : UInt32)
  deriving DecidableEq, Repr

/-- The tracker, the blacklist map, and the operations the tick in progress still has to apply.
The last field is what the operator did: the networks blocked and not unblocked since. -/
structure Top where
  tracker : FlowTracker
  blacklist : LpmTrie
  pending : List MapOp
  operator : Finset Block

/-- Steps of the dashboard and of the operator. The flags are outcomes of map operations. -/
inductive TopStep where
  | operatorBlock (k : LpmKey) (ok : Bool)
  | operatorUnblock (k : LpmKey) (ok : Bool)
  | processEvent (e : KwatchEvent)
  | processFlowSnapshot (entries : List FlowMapEntry) (now : UInt64)
  | tick (now : UInt64)
  | applyNext (ok : Bool)

namespace Top

open FlowTracker

def start (t : FlowTracker) (b : LpmTrie) : Top := ⟨t, b, [], ∅⟩

/-- `bpf_map_update_elem` of a blacklist entry, which can fail for reasons of its own. -/
def tryUpdate (ok : Bool) (t : LpmTrie) (k : LpmKey) : Option LpmTrie :=
  if ok then t.update k 1 else none

/-- `bpf_map_delete_elem` of a blacklist entry. -/
def tryDelete (ok : Bool) (t : LpmTrie) (k : LpmKey) : Option LpmTrie :=
  if ok then t.delete k else none

/-- A map operation of the tick, whose result is not looked at. -/
def applyOp (ok : Bool) (t : LpmTrie) : MapOp → LpmTrie
  | .insert ip => (tryUpdate ok t (hostKey ip)).getD t
  | .remove ip => (tryDelete ok t (hostKey ip)).getD t

/-- Release follows blocking in one tick. -/
def afterTick (now : UInt64) (t : FlowTracker) : FlowTracker :=
  (getExpiredBlocks now (tickAndGetBlocks now t).1).1

def toBlock (now : UInt64) (t : FlowTracker) : List UInt32 := (tickAndGetBlocks now t).2

def toUnblock (now : UInt64) (t : FlowTracker) : List UInt32 :=
  (getExpiredBlocks now (tickAndGetBlocks now t).1).2

/-- The dashboard is one thread: it starts nothing before the operations of a tick are applied. -/
def step (s : Top) : TopStep → Option Top
  | .operatorBlock k ok =>
    match tryUpdate ok s.blacklist k with
    | none => some s
    | some b => some { s with blacklist := b, operator := insert k.network s.operator }
  | .operatorUnblock k ok => some { s with
      blacklist := (tryDelete ok s.blacklist k).getD s.blacklist
      operator := s.operator.erase k.network }
  | .processEvent e =>
    if s.pending = [] then some { s with tracker := s.tracker.processEvent e } else none
  | .processFlowSnapshot entries now =>
    if s.pending = [] then some { s with tracker := s.tracker.processFlowSnapshot entries now }
    else none
  | .tick now =>
    if s.pending = [] then some { s with
      tracker := afterTick now s.tracker
      pending := (toBlock now s.tracker).map .insert ++ (toUnblock now s.tracker).map .remove }
    else none
  | .applyNext ok =>
    match s.pending with
    | [] => none
    | op :: rest => some { s with blacklist := applyOp ok s.blacklist op, pending := rest }

/-! ### Map operations on the networks -/

theorem mem_networks_applyOp_insert (ok : Bool) (t : LpmTrie) (ip : UInt32) {n : Block}
    (h : n ∈ t.networks) : n ∈ (applyOp ok t (.insert ip)).networks := by
  simp only [applyOp, tryUpdate]
  cases hu : t.update (hostKey ip) 1 with
  | none => cases ok <;> exact h
  | some u =>
    cases ok
    · exact h
    · exact (LpmTrie.mem_networks_update hu).mpr (Or.inr h)

theorem mem_networks_tryUpdate {ok : Bool} {t u : LpmTrie} {k : LpmKey}
    (h : tryUpdate ok t k = some u) {n : Block} :
    n ∈ u.networks ↔ n = k.network ∨ n ∈ t.networks := by
  cases ok with
  | false => cases h
  | true => exact LpmTrie.mem_networks_update h

theorem mem_networks_tryDelete (ok : Bool) (t : LpmTrie) (k : LpmKey) {n : Block}
    (hne : n ≠ k.network) (h : n ∈ t.networks) :
    n ∈ ((tryDelete ok t k).getD t).networks := by
  simp only [tryDelete]
  cases hu : t.delete k with
  | none => cases ok <;> exact h
  | some u =>
    cases ok
    · exact h
    · exact (LpmTrie.mem_networks_delete hu).mpr ⟨hne, h⟩

/-! ### What a tick asks for -/

/-- The block of a source, or one that starts now, has lived its time. -/
def Due (t : FlowTracker) (now : UInt64) (ip : UInt32) : Prop :=
  ∃ s, t.ipStats.get? ip = some s ∧
    isExpired t.autoBlockTtlNs now (startBlock t.autoBlockEnabled now s) = true

theorem mem_toUnblock {t : FlowTracker} {now : UInt64} {ip : UInt32} :
    ip ∈ toUnblock now t ↔ Due t now ip := by
  rw [toUnblock, mem_expired]
  simp only [tickAndGetBlocks, evictIdle_get?, Table.get?_mapVals, Due]
  constructor
  · rintro ⟨s, hs, hx⟩
    have hs' : (t.ipStats.get? ip).map (startBlock t.autoBlockEnabled now) = some s := by
      split at hs
      · exact (Option.filter_eq_some_iff.mp hs).1
      · exact hs
    obtain ⟨s₀, hs₀, rfl⟩ := Option.map_eq_some_iff.mp hs'
    exact ⟨s₀, hs₀, hx⟩
  · rintro ⟨s₀, hs₀, hx⟩
    refine ⟨_, ?_, hx⟩
    rw [hs₀, Option.map_some]
    split
    · have hb : (startBlock t.autoBlockEnabled now s₀).isBlocked = true := by
        simp only [isExpired, Bool.and_eq_true] at hx
        exact hx.1
      simp [isEvictable, hb]
    · rfl

/-- The blocks after a tick: those before and the new ones, without the released ones. -/
theorem blocked_afterTick {t : FlowTracker} {now : UInt64} {ip : UInt32} :
    (afterTick now t).Blocked ip ↔
      ip ∉ toUnblock now t ∧ (ip ∈ toBlock now t ∨ t.Blocked ip) := by
  have hx := expired_blockStart now (tickAndGetBlocks now t).1 ip
  have hb := (tick_blockStart now t ip).1
  rw [blocked_iff_blockStart, blocked_iff_blockStart, afterTick, hx]
  simp only [toUnblock, toBlock]
  split
  · next h => simp [h]
  · next h =>
    rw [hb]
    split
    · next h' => simp [h, h']
    · next h' => simp [h, h']

/-- The flow entry of a source with three SYNs at time 5. -/
def flood (ip : UInt32) : FlowMapEntry := ⟨⟨ip, 9, 1, 2, 6⟩, ⟨3, 0, 5, 5⟩⟩

end Top

end KWatch
