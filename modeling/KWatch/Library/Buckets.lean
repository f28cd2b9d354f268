import KWatch.Library.Table

/-! # Hash tables walked by a cursor

A hash table keeps its keys in the order of their buckets, and a new key goes to the head of the
chain of its bucket. A walk asks for the key that follows the last one; a key that is not stored
has no place, so the walk starts again from the first key.
-/

namespace Buckets

variable {K : Type*}

/-- One key lies before another in a list of keys. -/
def Before (l : List K) (a b : K) : Prop := [a, b].Sublist l

section Order

variable {l l' : List K} {a b c : K}

theorem Before.of_sublist (h : Before l a b) (hl : l.Sublist l') : Before l' a b := h.trans hl

theorem Before.mem_right (h : Before l a b) : b ∈ l := h.subset (by simp)

theorem not_before_self (hn : l.Nodup) : ¬Before l a a := fun h => by
  have := hn.sublist h
  simp at this

/-- A key that occurs once lies in neither part around it. -/
theorem notMem_of_nodup {p s : List K} (hn : (p ++ c :: s).Nodup) : c ∉ p ∧ c ∉ s := by
  rw [List.nodup_append, List.nodup_cons] at hn
  constructor
  · intro hm
    exact hn.2.2 c hm c List.mem_cons_self rfl
  · exact hn.2.1.1

/-- Where the first of two keys lies: before a third one, at it or behind it. -/
theorem before_cases {p s : List K} (h : Before (p ++ c :: s) a b) :
    a ∈ p ∨ a = c ∧ b ∈ s ∨ Before s a b := by
  obtain ⟨l₁, l₂, he, h₁, h₂⟩ := List.sublist_append_iff.mp h
  rcases l₁ with _ | ⟨x, l₁⟩
  · rw [List.nil_append] at he
    subst he
    rcases List.cons_sublist_cons'.mp h₂ with h₂ | ⟨heq, h₂⟩
    · exact Or.inr (Or.inr h₂)
    · exact Or.inr (Or.inl ⟨heq, List.singleton_sublist.mp h₂⟩)
  · rw [List.cons_append, List.cons.injEq] at he
    rw [he.1]
    exact Or.inl (h₁.subset (by simp))

/-- What lies behind a key is what follows it. -/
theorem before_iff_mem {p s : List K} (hn : (p ++ c :: s).Nodup) :
    Before (p ++ c :: s) c a ↔ a ∈ s := by
  obtain ⟨hp, hs⟩ := notMem_of_nodup hn
  constructor
  · intro h
    rcases before_cases h with hc | ⟨_, ha⟩ | h
    · exact absurd hc hp
    · exact ha
    · exact h.mem_right
  · intro hm
    apply List.Sublist.trans _ (List.sublist_append_right p (c :: s))
    exact (List.singleton_sublist.mpr hm).cons_cons c

/-- What lies before a key is what precedes it. -/
theorem before_iff_mem_left {p s : List K} (hn : (p ++ c :: s).Nodup) :
    Before (p ++ c :: s) a c ↔ a ∈ p := by
  obtain ⟨hp, hs⟩ := notMem_of_nodup hn
  constructor
  · intro h
    rcases before_cases h with ha | ⟨_, hc⟩ | h
    · exact ha
    · exact absurd hc hs
    · exact absurd h.mem_right hs
  · intro hm
    have hsub : ([a] ++ [c]).Sublist (p ++ c :: s) :=
      (List.singleton_sublist.mpr hm).append (List.singleton_sublist.mpr (by simp))
    exact hsub

/-- The first key lies before every other key. -/
theorem before_of_head? {l : List K} (hn : l.Nodup) {k a : K} (h : l.head? = some k) (ha : a ∈ l) :
    a = k ∨ Before l k a := by
  obtain ⟨s, rfl⟩ := List.head?_eq_some_iff.mp h
  rcases List.mem_cons.mp ha with rfl | ha
  · exact Or.inl rfl
  · exact Or.inr ((before_iff_mem (p := []) hn).mpr ha)

theorem before_le {bucket : K → ℕ} (hs : l.Pairwise fun x y => bucket x ≤ bucket y)
    (h : Before l a b) : bucket a ≤ bucket b := by
  have := hs.sublist h
  simpa using this

end Order

/-! ### Insertion at the head of a chain -/

/-- A key at the head of the chain of its bucket. -/
def insertKey (bucket : K → ℕ) (l : List K) (k : K) : List K :=
  l.takeWhile (fun x => bucket x < bucket k) ++ k :: l.dropWhile (fun x => bucket x < bucket k)

section Insert

variable {bucket : K → ℕ} {l : List K} {k a b : K}

theorem mem_insertKey : a ∈ insertKey bucket l k ↔ a = k ∨ a ∈ l := by
  rw [insertKey, List.mem_append, List.mem_cons]
  conv_rhs =>
    rw [← List.takeWhile_append_dropWhile (p := fun x => decide (bucket x < bucket k)) (l := l)]
  rw [List.mem_append]
  tauto

theorem sublist_insertKey : l.Sublist (insertKey bucket l k) := by
  conv_lhs =>
    rw [← List.takeWhile_append_dropWhile (p := fun x => decide (bucket x < bucket k)) (l := l)]
  exact List.Sublist.append_left (List.sublist_cons_self k _) _

theorem nodup_insertKey (hn : l.Nodup) (hk : k ∉ l) : (insertKey bucket l k).Nodup := by
  rw [insertKey, List.nodup_middle, List.takeWhile_append_dropWhile, List.nodup_cons]
  exact ⟨hk, hn⟩

/-- The order of the other keys does not change. -/
theorem before_insertKey_iff (ha : a ≠ k) (hb : b ≠ k) (hk : k ∉ l) :
    Before (insertKey bucket l k) a b ↔ Before l a b := by
  constructor
  · intro h
    classical
    have hf := List.Sublist.filter (fun x => decide (x ≠ k)) h
    have hl : (insertKey bucket l k).filter (fun x => decide (x ≠ k)) = l := by
      rw [insertKey, List.filter_append, List.filter_cons_of_neg (by simp), ← List.filter_append,
        List.takeWhile_append_dropWhile, List.filter_eq_self]
      intro x hx
      rw [decide_eq_true_iff]
      rintro rfl
      exact hk hx
    rw [hl] at hf
    simpa [ha, hb, Before] using hf
  · intro h
    exact h.of_sublist sublist_insertKey

theorem bucket_lt_of_mem_takeWhile (h : a ∈ l.takeWhile fun x => bucket x < bucket k) :
    bucket a < bucket k := by
  simpa using List.mem_takeWhile_imp h

theorem bucket_le_of_mem_dropWhile (hs : l.Pairwise fun x y => bucket x ≤ bucket y)
    (h : a ∈ l.dropWhile fun x => bucket x < bucket k) : bucket k ≤ bucket a := by
  induction l with
  | nil => cases h
  | cons x l ih =>
    rw [List.pairwise_cons] at hs
    by_cases hx : bucket x < bucket k
    · rw [List.dropWhile_cons_of_pos (by simpa using hx)] at h
      exact ih hs.2 h
    · rw [List.dropWhile_cons_of_neg (by simpa using hx)] at h
      rcases List.mem_cons.mp h with rfl | h
      · exact not_lt.mp hx
      · exact (not_lt.mp hx).trans (hs.1 a h)

/-- A key that lies before the new key is in an earlier bucket. -/
theorem bucket_lt_of_before (hn : l.Nodup) (hk : k ∉ l) (h : Before (insertKey bucket l k) a k) :
    bucket a < bucket k := by
  have hn' : (insertKey bucket l k).Nodup := nodup_insertKey hn hk
  exact bucket_lt_of_mem_takeWhile ((before_iff_mem_left hn').mp h)

/-- A new key lies before every key of its own and the later buckets. -/
theorem before_of_bucket_le (hn : l.Nodup) (hk : k ∉ l) (ha : a ∈ l) (h : bucket k ≤ bucket a) :
    Before (insertKey bucket l k) k a := by
  have hn' : (insertKey bucket l k).Nodup := nodup_insertKey hn hk
  apply (before_iff_mem hn').mpr
  rw [← List.takeWhile_append_dropWhile (p := fun x => decide (bucket x < bucket k)) (l := l),
    List.mem_append] at ha
  rcases ha with ha | ha
  · exact absurd (bucket_lt_of_mem_takeWhile ha) (not_lt.mpr h)
  · exact ha

theorem pairwise_insertKey (hs : l.Pairwise fun x y => bucket x ≤ bucket y) :
    (insertKey bucket l k).Pairwise fun x y => bucket x ≤ bucket y := by
  have hl := List.takeWhile_append_dropWhile (p := fun x => decide (bucket x < bucket k)) (l := l)
  have hparts := hs
  rw [← hl, List.pairwise_append] at hparts
  rw [insertKey, List.pairwise_append, List.pairwise_cons]
  refine ⟨hparts.1, ⟨fun a ha => bucket_le_of_mem_dropWhile hs ha, hparts.2.1⟩, ?_⟩
  intro a ha b hb
  rcases List.mem_cons.mp hb with rfl | hb
  · exact (bucket_lt_of_mem_takeWhile ha).le
  · exact hparts.2.2 a ha b hb

end Insert

/-! ### The next key -/

variable [DecidableEq K]

/-- The first key for no key or a key that is not stored, and otherwise the following one. -/
def nextKey (l : List K) : Option K → Option K
  | none => l.head?
  | some c => if c ∈ l then ((l.dropWhile (· ≠ c)).drop 1).head? else l.head?

theorem nextKey_split {p s : List K} {c : K} (hc : c ∉ p) :
    nextKey (p ++ c :: s) (some c) = s.head? := by
  have hp : ∀ x ∈ p, decide (x ≠ c) = true := fun x hx => by
    rw [decide_eq_true_iff]
    rintro rfl
    exact hc hx
  rw [nextKey, if_pos (by simp), List.dropWhile_append_of_pos hp,
    List.dropWhile_cons_of_neg (by simp), List.drop_one, List.tail_cons]

/-- The key that follows a stored key. -/
theorem nextKey_eq_some {l : List K} (hn : l.Nodup) {c k : K} (hc : c ∈ l)
    (h : nextKey l (some c) = some k) : ∃ p s, l = p ++ c :: k :: s := by
  obtain ⟨p, s, rfl⟩ := List.append_of_mem hc
  rw [nextKey_split (notMem_of_nodup hn).1, List.head?_eq_some_iff] at h
  obtain ⟨s, rfl⟩ := h
  exact ⟨p, s, rfl⟩

theorem nextKey_eq_none {l : List K} (hn : l.Nodup) {c : K} (hc : c ∈ l)
    (h : nextKey l (some c) = none) (k : K) : ¬Before l c k := by
  obtain ⟨p, s, rfl⟩ := List.append_of_mem hc
  rw [nextKey_split (notMem_of_nodup hn).1, List.head?_eq_none_iff] at h
  rw [before_iff_mem hn, h]
  exact List.not_mem_nil

/-- What lies behind a stored key is the following key or lies behind that. -/
theorem before_nextKey_iff {l : List K} (hn : l.Nodup) {c k a : K} (hc : c ∈ l)
    (h : nextKey l (some c) = some k) : Before l c a ↔ a = k ∨ Before l k a := by
  obtain ⟨p, s, rfl⟩ := nextKey_eq_some hn hc h
  have hn' : ((p ++ [c]) ++ k :: s).Nodup := by simpa using hn
  have hk := before_iff_mem (a := a) hn'
  rw [List.append_assoc, List.singleton_append] at hk
  rw [before_iff_mem hn, hk, List.mem_cons]

/-- The key that follows the key of a pair is that of the following pair. -/
theorem nextKey_map_fst {V : Type*} {p s : List (K × V)} {e : K × V}
    (hn : ((p ++ e :: s).map Prod.fst).Nodup) :
    nextKey ((p ++ e :: s).map Prod.fst) (some e.1) = s.head?.map Prod.fst := by
  rw [List.map_append, List.map_cons] at hn ⊢
  rw [nextKey_split (notMem_of_nodup hn).1, List.head?_map]

theorem nextKey_of_notMem {l : List K} {c : K} (hc : c ∉ l) : nextKey l (some c) = l.head? := by
  rw [nextKey, if_neg hc]

end Buckets

/-! ### Tables -/

/-- A table with its keys in the order of their buckets. -/
structure HashTable (K V : Type*) (bucket : K → ℕ) where
  table : Table K V
  sorted : table.keys.Pairwise fun x y => bucket x ≤ bucket y

namespace HashTable

variable {K V : Type*} {bucket : K → ℕ}

def keys (t : HashTable K V bucket) : List K := t.table.keys

theorem keys_nodup (t : HashTable K V bucket) : t.keys.Nodup := t.table.keys_nodup

/-- The pairs with a new one at the head of its chain. -/
def insertEntries (bucket : K → ℕ) (l : List (K × V)) (k : K) (v : V) : List (K × V) :=
  l.takeWhile (fun e => bucket e.1 < bucket k) ++
    (k, v) :: l.dropWhile (fun e => bucket e.1 < bucket k)

theorem keys_insertEntries (l : List (K × V)) (k : K) (v : V) :
    (insertEntries bucket l k v).map Prod.fst = Buckets.insertKey bucket (l.map Prod.fst) k := by
  simp only [insertEntries, Buckets.insertKey, List.map_append, List.map_cons, List.takeWhile_map,
    List.dropWhile_map]
  rfl

variable [DecidableEq K]

def get? (t : HashTable K V bucket) (k : K) : Option V := t.table.get? k

def nextKey (t : HashTable K V bucket) (c : Option K) : Option K := Buckets.nextKey t.keys c

/-- Add a key that is not stored. -/
def insert (t : HashTable K V bucket) (k : K) (v : V) : Option (HashTable K V bucket) :=
  if h : k ∈ t.keys then none
  else some ⟨⟨insertEntries bucket t.table.entries k v, by
    rw [keys_insertEntries]
    exact Buckets.nodup_insertKey t.keys_nodup h⟩, by
    rw [Table.keys, keys_insertEntries]
    exact Buckets.pairwise_insertKey t.sorted⟩

/-- Write the value of a stored key in its place. -/
def update (t : HashTable K V bucket) (k : K) (v : V) : Option (HashTable K V bucket) :=
  if h : k ∈ t.keys then some ⟨t.table.set k v, by
    have hk : (t.table.set k v).keys = t.table.keys := by
      rw [Table.keys, Table.entries_set_of_mem h, Table.replace_keys]
      rfl
    rw [hk]
    exact t.sorted⟩
  else none

def erase (t : HashTable K V bucket) (k : K) : Option (HashTable K V bucket) :=
  if k ∈ t.keys then some ⟨t.table.erase k, by
    have hk : (t.table.erase k).keys.Sublist t.table.keys := List.filter_sublist.map _
    exact t.sorted.sublist hk⟩
  else none

variable {t t' : HashTable K V bucket} {k a b : K} {v : V}

theorem mem_keys_iff_isSome : k ∈ t.keys ↔ (t.get? k).isSome := Table.mem_keys_iff_isSome

theorem keys_insert (h : t.insert k v = some t') :
    k ∉ t.keys ∧ t'.keys = Buckets.insertKey bucket t.keys k := by
  unfold insert at h
  split at h
  · cases h
  · next hk =>
    cases h
    exact ⟨hk, keys_insertEntries ..⟩

theorem keys_update (h : t.update k v = some t') : t'.keys = t.keys := by
  unfold update at h
  split at h
  · next hk =>
    cases h
    simp only [keys, Table.keys]
    rw [Table.entries_set_of_mem hk, Table.replace_keys]
  · cases h

theorem keys_erase (h : t.erase k = some t') :
    k ∈ t.keys ∧ t'.keys = t.keys.filter fun a => a ≠ k := by
  unfold erase at h
  split at h
  · next hk =>
    cases h
    refine ⟨hk, ?_⟩
    simp only [keys, Table.keys, Table.erase, List.filter_map]
    rfl
  · cases h

/-- A removal does not change the order of the other keys. -/
theorem before_erase_iff (h : t.erase k = some t') (ha : a ≠ k) (hb : b ≠ k) :
    Buckets.Before t'.keys a b ↔ Buckets.Before t.keys a b := by
  rw [(keys_erase h).2]
  constructor
  · intro hab
    exact hab.of_sublist List.filter_sublist
  · intro hab
    have hf := List.Sublist.filter (fun x => decide (x ≠ k)) hab
    simpa [ha, hb, Buckets.Before] using hf

end HashTable
