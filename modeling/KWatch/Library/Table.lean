import Mathlib

/-! # Keyed tables

A table is a finite list of key-value pairs whose keys are distinct, in an order of its own.
An update of a present key stays in place and a new key goes to the end, so a cursor can walk
a table; bounded insertions refuse a new key once the table is full.
-/

/-- A finite list of key-value pairs with distinct keys. -/
structure Table (K V : Type*) where
  entries : List (K × V)
  nodup : (entries.map Prod.fst).Nodup

namespace Table

section Basic

variable {K V : Type*}

def empty : Table K V := ⟨[], List.nodup_nil⟩

def keys (t : Table K V) : List K := t.entries.map Prod.fst

def size (t : Table K V) : ℕ := t.entries.length

def filter (p : K → V → Bool) (t : Table K V) : Table K V :=
  ⟨t.entries.filter fun e => p e.1 e.2, t.nodup.sublist (List.filter_sublist.map _)⟩

def mapVals (f : K → V → V) (t : Table K V) : Table K V :=
  ⟨t.entries.map fun e => (e.1, f e.1 e.2), by simpa [Function.comp_def] using t.nodup⟩

theorem mem_keys_of_mem {t : Table K V} {k : K} {v : V} (h : (k, v) ∈ t.entries) : k ∈ t.keys :=
  List.mem_map_of_mem (f := Prod.fst) h

@[simp] theorem keys_empty : (empty : Table K V).keys = [] := rfl
@[simp] theorem size_empty : (empty : Table K V).size = 0 := rfl

theorem ext_entries {t u : Table K V} (h : t.entries = u.entries) : t = u := by
  cases t; cases u; cases h; rfl

theorem keys_nodup (t : Table K V) : t.keys.Nodup := t.nodup

@[simp] theorem length_keys (t : Table K V) : t.keys.length = t.size := by simp [keys, size]

@[simp] theorem keys_mapVals (f : K → V → V) (t : Table K V) : (t.mapVals f).keys = t.keys := by
  simp [keys, mapVals, Function.comp_def]

end Basic

variable {K V : Type*} [DecidableEq K]

def get? (t : Table K V) (k : K) : Option V := t.entries.lookup k

/-- Replace the value of a present key in its place. -/
def replace (l : List (K × V)) (k : K) (v : V) : List (K × V) :=
  l.map fun e => if e.1 = k then (k, v) else e

theorem replace_keys (l : List (K × V)) (k : K) (v : V) :
    (replace l k v).map Prod.fst = l.map Prod.fst := by
  simp only [replace, List.map_map]
  apply List.map_congr_left
  intro e _
  by_cases h : e.1 = k <;> simp [h]

/-- Update a present key in place, or append a new one. -/
def set (t : Table K V) (k : K) (v : V) : Table K V :=
  if h : k ∈ t.keys then ⟨replace t.entries k v, by rw [replace_keys]; exact t.nodup⟩
  else ⟨t.entries ++ [(k, v)], by
    rw [List.map_append]
    refine t.nodup.append (List.nodup_singleton k) ?_
    rw [List.map_singleton, List.disjoint_singleton]; exact h⟩

def erase (t : Table K V) (k : K) : Table K V :=
  ⟨t.entries.filter fun e => e.1 ≠ k, t.nodup.sublist (List.filter_sublist.map _)⟩

/-- Insert or update, refusing a new key when `cap` keys are stored. -/
def put (cap : ℕ) (t : Table K V) (k : K) (v : V) : Option (Table K V) :=
  if k ∈ t.keys ∨ t.size < cap then some (t.set k v) else none

/-- Insert a key that is not stored yet, refusing it when `cap` keys are stored. -/
def putNew (cap : ℕ) (t : Table K V) (k : K) (v : V) : Option (Table K V) :=
  if k ∈ t.keys then none else t.put cap k v

/-- Remove a stored key. -/
def remove (t : Table K V) (k : K) : Option (Table K V) :=
  if k ∈ t.keys then some (t.erase k) else none

/-! ### Reading -/

theorem get?_eq_none_iff {t : Table K V} {k : K} : t.get? k = none ↔ k ∉ t.keys := by
  simp only [get?, List.lookup_eq_none_iff, keys, List.mem_map, not_exists, not_and, bne_iff_ne]
  exact ⟨fun h e he hk => h e he hk.symm, fun h e he hk => h e he hk.symm⟩

theorem mem_keys_iff_isSome {t : Table K V} {k : K} : k ∈ t.keys ↔ (t.get? k).isSome := by
  rw [← not_iff_not, ← get?_eq_none_iff, Option.not_isSome_iff_eq_none]

theorem mem_keys_of_get? {t : Table K V} {k : K} {v : V} (h : t.get? k = some v) : k ∈ t.keys :=
  mem_keys_iff_isSome.mpr (by simp [h])

theorem lookup_eq_some_iff_mem {l : List (K × V)} (hn : (l.map Prod.fst).Nodup) {k : K} {v : V} :
    l.lookup k = some v ↔ (k, v) ∈ l := by
  induction l with
  | nil => simp
  | cons e l ih =>
    obtain ⟨k', v'⟩ := e
    rw [List.map_cons, List.nodup_cons] at hn
    by_cases h : k = k'
    · subst h
      rw [List.lookup_cons_self, List.mem_cons]
      constructor
      · rintro ⟨⟩; exact Or.inl rfl
      · rintro (he | hm)
        · rw [(Prod.mk.inj he).2]
        · exact absurd (List.mem_map_of_mem (f := Prod.fst) hm) hn.1
    · have hb : (k == k') = false := beq_false_of_ne h
      rw [List.lookup_cons, hb, List.mem_cons, ih hn.2]
      simp [h]

theorem get?_eq_some_iff {t : Table K V} {k : K} {v : V} :
    t.get? k = some v ↔ (k, v) ∈ t.entries :=
  lookup_eq_some_iff_mem t.nodup

@[simp] theorem get?_empty (k : K) : (empty : Table K V).get? k = none := rfl

theorem toFinset_keys_card (t : Table K V) : t.keys.toFinset.card = t.size := by
  rw [List.toFinset_card_of_nodup t.keys_nodup, length_keys]

/-! ### Writing -/

theorem mem_replace {l : List (K × V)} {k k' : K} {v v' : V} :
    (k', v') ∈ replace l k v ↔
      (k' = k ∧ v' = v ∧ k ∈ l.map Prod.fst) ∨ (k' ≠ k ∧ (k', v') ∈ l) := by
  simp only [replace, List.mem_map, Prod.exists, exists_and_right, exists_eq_right]
  constructor
  · rintro ⟨a, b, hm, he⟩
    split at he
    · next h => obtain ⟨rfl, rfl⟩ := Prod.mk.inj he; exact Or.inl ⟨rfl, rfl, b, h ▸ hm⟩
    · next h => obtain ⟨rfl, rfl⟩ := Prod.mk.inj he; exact Or.inr ⟨h, hm⟩
  · rintro (⟨rfl, rfl, b, hm⟩ | ⟨hne, hm⟩)
    · exact ⟨k', b, hm, by simp⟩
    · exact ⟨k', v', hm, by simp [hne]⟩

theorem mem_entries_set {t : Table K V} {k k' : K} {v v' : V} :
    (k', v') ∈ (t.set k v).entries ↔ (k' = k ∧ v' = v) ∨ (k' ≠ k ∧ (k', v') ∈ t.entries) := by
  unfold set
  split
  · next h =>
    have hk : k ∈ t.entries.map Prod.fst := h
    simp only [mem_replace, hk, and_true]
  · next h =>
    simp only [List.mem_append, List.mem_singleton, Prod.mk.injEq]
    constructor
    · rintro (hm | he)
      · exact Or.inr ⟨fun he => h (he ▸ mem_keys_of_mem hm), hm⟩
      · exact Or.inl he
    · rintro (he | ⟨_, hm⟩)
      · exact Or.inr he
      · exact Or.inl hm

theorem get?_set (t : Table K V) (k k' : K) (v : V) :
    (t.set k v).get? k' = if k' = k then some v else t.get? k' := by
  apply Option.ext
  intro v'
  rw [get?_eq_some_iff, mem_entries_set]
  by_cases h : k' = k
  · simp [h, eq_comm]
  · simp [h, get?_eq_some_iff]

@[simp] theorem get?_set_self (t : Table K V) (k : K) (v : V) : (t.set k v).get? k = some v := by
  simp [get?_set]

theorem get?_set_ne (t : Table K V) {k k' : K} (h : k' ≠ k) (v : V) :
    (t.set k v).get? k' = t.get? k' := by
  simp [get?_set, h]

theorem mem_keys_set {t : Table K V} {k k' : K} {v : V} :
    k' ∈ (t.set k v).keys ↔ k' = k ∨ k' ∈ t.keys := by
  rw [mem_keys_iff_isSome, mem_keys_iff_isSome, get?_set]
  by_cases h : k' = k <;> simp [h]

theorem size_set_of_mem {t : Table K V} {k : K} (h : k ∈ t.keys) (v : V) :
    (t.set k v).size = t.size := by
  simp [set, h, size, replace]

theorem size_set_of_notMem {t : Table K V} {k : K} (h : k ∉ t.keys) (v : V) :
    (t.set k v).size = t.size + 1 := by
  simp [set, h, size]

theorem replace_replace (l : List (K × V)) (k : K) (v w : V) :
    replace (replace l k v) k w = replace l k w := by
  simp only [replace, List.map_map]
  apply List.map_congr_left
  intro e _
  by_cases h : e.1 = k <;> simp [h]

theorem replace_of_notMem {l : List (K × V)} {k : K} (h : k ∉ l.map Prod.fst) (v : V) :
    replace l k v = l := by
  rw [replace, List.map_congr_left (g := id), List.map_id]
  intro e he
  rw [if_neg]
  · rfl
  · rintro rfl
    exact h (List.mem_map_of_mem he)

theorem entries_set_of_mem {t : Table K V} {k : K} (h : k ∈ t.keys) (v : V) :
    (t.set k v).entries = replace t.entries k v := by
  simp [set, h]

theorem entries_set_of_notMem {t : Table K V} {k : K} (h : k ∉ t.keys) (v : V) :
    (t.set k v).entries = t.entries ++ [(k, v)] := by
  simp [set, h]

/-- The last of two writes to a key stays. -/
theorem set_set (t : Table K V) (k : K) (v w : V) : (t.set k v).set k w = t.set k w := by
  apply ext_entries
  rw [entries_set_of_mem (mem_keys_set.mpr (Or.inl rfl))]
  by_cases h : k ∈ t.keys
  · rw [entries_set_of_mem h, entries_set_of_mem h, replace_replace]
  · rw [entries_set_of_notMem h, entries_set_of_notMem h]
    have hr := replace_of_notMem (l := t.entries) h w
    simp only [replace] at hr
    simp [replace, hr]

theorem get?_erase (t : Table K V) (k k' : K) :
    (t.erase k).get? k' = if k' = k then none else t.get? k' := by
  apply Option.ext
  intro v
  rw [get?_eq_some_iff]
  by_cases h : k' = k <;> simp [erase, h, get?_eq_some_iff]

/-- The removal of a new key undoes its insertion. -/
theorem erase_set_of_notMem {t : Table K V} {k : K} (h : k ∉ t.keys) (v : V) :
    (t.set k v).erase k = t := by
  apply ext_entries
  have hkeep : ∀ e ∈ t.entries, e.1 ≠ k := by
    rintro ⟨k', v'⟩ he rfl
    exact h (mem_keys_of_mem he)
  simpa [erase, entries_set_of_notMem h, List.filter_append] using hkeep

theorem mem_keys_erase {t : Table K V} {k k' : K} :
    k' ∈ (t.erase k).keys ↔ k' ≠ k ∧ k' ∈ t.keys := by
  rw [mem_keys_iff_isSome, mem_keys_iff_isSome, get?_erase]
  by_cases h : k' = k <;> simp [h]

theorem get?_filter (p : K → V → Bool) (t : Table K V) (k : K) :
    (t.filter p).get? k = (t.get? k).filter (p k) := by
  apply Option.ext
  intro v
  rw [get?_eq_some_iff, Option.filter_eq_some_iff, get?_eq_some_iff]
  simp [filter]

theorem get?_mapVals (f : K → V → V) (t : Table K V) (k : K) :
    (t.mapVals f).get? k = (t.get? k).map (f k) := by
  apply Option.ext
  intro v
  rw [get?_eq_some_iff, Option.map_eq_some_iff]
  simp only [mapVals, List.mem_map, Prod.mk.injEq, Prod.exists, get?_eq_some_iff]
  constructor
  · rintro ⟨a, b, hm, rfl, rfl⟩; exact ⟨b, hm, rfl⟩
  · rintro ⟨b, hm, rfl⟩; exact ⟨k, b, hm, rfl, rfl⟩

/-! ### Bounded writing -/

theorem put_eq_some_iff {cap : ℕ} {t u : Table K V} {k : K} {v : V} :
    t.put cap k v = some u ↔ (k ∈ t.keys ∨ t.size < cap) ∧ t.set k v = u := by
  unfold put
  split <;> simp_all

theorem put_isSome_iff {cap : ℕ} {t : Table K V} {k : K} {v : V} :
    (t.put cap k v).isSome ↔ k ∈ t.keys ∨ t.size < cap := by
  simp [put]

theorem putNew_eq_some_iff {cap : ℕ} {t u : Table K V} {k : K} {v : V} :
    t.putNew cap k v = some u ↔ k ∉ t.keys ∧ t.size < cap ∧ t.set k v = u := by
  unfold putNew
  split
  · simp_all
  · next h => simp [put_eq_some_iff, h]

theorem size_put_le {cap : ℕ} {t u : Table K V} {k : K} {v : V} (h : t.put cap k v = some u)
    (hc : t.size ≤ cap) : u.size ≤ cap := by
  obtain ⟨hk, rfl⟩ := put_eq_some_iff.mp h
  by_cases hm : k ∈ t.keys
  · rw [size_set_of_mem hm]; exact hc
  · rw [size_set_of_notMem hm]
    rcases hk with hk | hk
    · exact absurd hk hm
    · omega

end Table
