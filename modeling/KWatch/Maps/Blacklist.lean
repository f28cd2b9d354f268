import KWatch.Library.Lpm
import KWatch.Wire.Bytes

/-! # The blacklist map

The kernel keeps the blacklist in a longest-prefix-match trie of at most 1024 entries. A key
holds the address in network order, host bits included, and two keys with one prefix length
and the same leading bits are one entry.
-/

namespace KWatch

/-- The key layout shared by the program and the commands. -/
structure LpmKey where
  prefixlen : UInt32
  data : UInt32
  deriving DecidableEq, Repr

/-- The network a key stands for: its address truncated to its prefix length. -/
def LpmKey.network (k : LpmKey) : Block := .around 32 k.prefixlen.toNat (be32ToCpu k.data)

/-- Membership of an address, as it lies in memory, in a network. -/
def InNetwork (a : UInt32) (n : Block) : Prop := n.Covers 32 (be32ToCpu a)

instance (a : UInt32) (n : Block) : Decidable (InNetwork a n) :=
  inferInstanceAs (Decidable (n.Covers 32 (be32ToCpu a)))

/-- The key the tracker and the packet program use for a single address. -/
def hostKey (a : UInt32) : LpmKey := ⟨32, a⟩

theorem inNetwork_hostKey (a a' : UInt32) : InNetwork a' (hostKey a).network ↔ a' = a := by
  apply (Block.covers_full (w := 32) (be32ToCpu a) (be32ToCpu a')).trans
  exact be32ToCpu_injective.eq_iff

theorem hostKey_network_injective : Function.Injective fun a => (hostKey a).network := by
  intro a a' h
  have hc : InNetwork a (hostKey a).network := (inNetwork_hostKey a a).mpr rfl
  rw [show (hostKey a).network = (hostKey a').network from h] at hc
  exact (inNetwork_hostKey a' a).mp hc

def blacklistMaxEntries : ℕ := 1024

/-- Contents of the trie: for each network the key last written for it and its value. -/
structure LpmTrie where
  table : Table Block (LpmKey × UInt8)
  keyed : ∀ n e, (n, e) ∈ table.entries → e.1.network = n ∧ e.1.prefixlen.toNat ≤ 32
  bounded : table.size ≤ blacklistMaxEntries

namespace LpmTrie

def empty : LpmTrie := ⟨.empty, by simp [Table.empty], by simp⟩

/-- The networks with an entry. -/
def networks (t : LpmTrie) : List Block := t.table.keys

/-- `bpf_map_update_elem` with `BPF_ANY`; no value stands for an error code. -/
def update (t : LpmTrie) (k : LpmKey) (v : UInt8) : Option LpmTrie :=
  if hk : k.prefixlen.toNat ≤ 32 then
    match h : t.table.put blacklistMaxEntries k.network (k, v) with
    | none => none
    | some u => some
      { table := u
        keyed := fun n e he => by
          obtain ⟨_, rfl⟩ := Table.put_eq_some_iff.mp h
          rcases Table.mem_entries_set.mp he with ⟨rfl, rfl⟩ | ⟨_, hm⟩
          · exact ⟨rfl, hk⟩
          · exact t.keyed n e hm
        bounded := Table.size_put_le h t.bounded }
  else none

/-- `bpf_map_delete_elem`; no value stands for an error code. -/
def delete (t : LpmTrie) (k : LpmKey) : Option LpmTrie :=
  if k.network ∈ t.networks then
    some
      { table := t.table.erase k.network
        keyed := fun n e he => t.keyed n e (List.mem_of_mem_filter he)
        bounded := (List.length_filter_le _ _).trans t.bounded }
  else none

/-- `bpf_map_lookup_elem`: the value of the longest entry matching the key. -/
def lookup (t : LpmTrie) (k : LpmKey) : Option UInt8 :=
  (Lpm.longest 32 t.table k.prefixlen.toNat (be32ToCpu k.data)).map Prod.snd

/-! ### What the operations do to the networks -/

@[simp] theorem networks_empty : empty.networks = [] := rfl

theorem prefixlen_le {t : LpmTrie} {n : Block} (h : n ∈ t.networks) : n.len ≤ 32 := by
  obtain ⟨e, he⟩ := Option.isSome_iff_exists.mp (Table.mem_keys_iff_isSome.mp h)
  obtain ⟨rfl, hle⟩ := t.keyed n e (Table.get?_eq_some_iff.mp he)
  exact hle

theorem update_isSome_iff {t : LpmTrie} {k : LpmKey} {v : UInt8} (hk : k.prefixlen.toNat ≤ 32) :
    (t.update k v).isSome ↔ k.network ∈ t.networks ∨ t.networks.length < blacklistMaxEntries := by
  rw [networks, Table.length_keys, ← Table.put_isSome_iff (v := (k, v))]
  unfold update
  rw [dif_pos hk]
  split <;> simp_all

theorem mem_networks_update {t u : LpmTrie} {k : LpmKey} {v : UInt8} (h : t.update k v = some u)
    {n : Block} : n ∈ u.networks ↔ n = k.network ∨ n ∈ t.networks := by
  unfold update at h
  split at h
  · split at h
    · cases h
    · next hk u' hu =>
      cases h
      obtain ⟨_, rfl⟩ := Table.put_eq_some_iff.mp hu
      exact Table.mem_keys_set
  · cases h

theorem delete_isSome_iff {t : LpmTrie} {k : LpmKey} :
    (t.delete k).isSome ↔ k.network ∈ t.networks := by
  unfold delete
  split <;> simp_all

theorem mem_networks_delete {t u : LpmTrie} {k : LpmKey} (h : t.delete k = some u) {n : Block} :
    n ∈ u.networks ↔ n ≠ k.network ∧ n ∈ t.networks := by
  unfold delete at h
  split at h
  · cases h
    exact Table.mem_keys_erase
  · cases h

theorem networks_nodup (t : LpmTrie) : t.networks.Nodup := t.table.keys_nodup

/-- A source address is matched when some stored network contains it. -/
theorem lookup_host_isSome_iff (t : LpmTrie) (a : UInt32) :
    (t.lookup (hostKey a)).isSome ↔ ∃ n ∈ t.networks, InNetwork a n := by
  simp only [lookup, Option.isSome_map, Lpm.longest_isSome_iff]
  constructor
  · rintro ⟨n, hn, _, hc⟩; exact ⟨n, hn, hc⟩
  · rintro ⟨n, hn, hc⟩; exact ⟨n, hn, prefixlen_le hn, hc⟩

end LpmTrie

end KWatch
