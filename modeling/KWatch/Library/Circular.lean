import Mathlib

/-! # Circular buffers

A circular buffer keeps its last values in cells: a head, where the next value goes, and the number
of cells that are in use. Until the buffer is full its values start at the first cell, from then on
at the head.
-/

namespace Circular

variable {α : Type*}

/-- Where the oldest value lies. -/
def start (cells : List α) (head count : ℕ) : ℕ := if count < cells.length then 0 else head

/-- The values, oldest first. -/
def contents (cells : List α) (head count : ℕ) : List α :=
  (cells.take count).rotate (start cells head count)

/-- The invariant of a buffer with cells: while it fills, the head follows the last value. -/
structure Ok (cells : List α) (head count : ℕ) : Prop where
  head_lt : head < cells.length
  count_le : count ≤ cells.length
  filling : count < cells.length → head = count

variable {cells : List α} {head count i : ℕ}

theorem Ok.init (h : 0 < cells.length) : Ok cells 0 0 := ⟨h, Nat.zero_le _, fun _ => rfl⟩

theorem contents_empty (cells : List α) (head : ℕ) : contents cells head 0 = [] := by
  simp [contents]

theorem Ok.length_contents (h : Ok cells head count) :
    (contents cells head count).length = count := by
  simp [contents, h.count_le]

theorem contents_perm (cells : List α) (head count : ℕ) :
    (contents cells head count).Perm (cells.take count) := List.rotate_perm _ _

theorem Ok.contents_filling (h : count < cells.length) :
    contents cells head count = cells.take count := by
  simp [contents, start, h]

theorem Ok.contents_full (h : Ok cells head cells.length) :
    contents cells head cells.length = cells.drop head ++ cells.take head := by
  rw [contents, start, if_neg (lt_irrefl _), List.take_length,
    List.rotate_eq_drop_append_take h.head_lt.le]

/-- Reading the buffer in order wraps around at its last cell. -/
theorem Ok.getElem?_contents (h : Ok cells head count) (hi : i < count) :
    (contents cells head count)[i]? = cells[(start cells head count + i) % cells.length]? := by
  rcases h.count_le.lt_or_eq with hlt | rfl
  · rw [Ok.contents_filling hlt, start, if_pos hlt, Nat.zero_add,
      Nat.mod_eq_of_lt (hi.trans hlt), List.getElem?_take_of_lt hi]
  · rw [contents, start, if_neg (lt_irrefl _), List.take_length, List.getElem?_rotate hi,
      Nat.add_comm]

/-- The newest value lies one step before the head. -/
theorem Ok.getLast?_contents (h : Ok cells head count) (hc : 0 < count) :
    (contents cells head count).getLast? =
      cells[if head = 0 then cells.length - 1 else head - 1]? := by
  have hlast : (start cells head count + (count - 1)) % cells.length =
      if head = 0 then cells.length - 1 else head - 1 := by
    rcases h.count_le.lt_or_eq with hlt | rfl
    · obtain rfl := h.filling hlt
      rw [start, if_pos hlt, if_neg hc.ne', Nat.zero_add, Nat.mod_eq_of_lt (by omega)]
    · rw [start, if_neg (lt_irrefl _)]
      have := h.head_lt
      split
      · rw [Nat.mod_eq_of_lt (by omega)]
        omega
      · rw [Nat.mod_eq_sub_mod (by omega), Nat.mod_eq_of_lt (by omega)]
        omega
  rw [List.getLast?_eq_getElem?, h.length_contents, h.getElem?_contents (by omega), hlast]

/-! ### One more value -/

/-- The number of values after one more. -/
def nextCount (cells : List α) (count : ℕ) : ℕ :=
  if count < cells.length then count + 1 else count

theorem Ok.push (h : Ok cells head count) (v : α) :
    Ok (cells.set head v) ((head + 1) % cells.length) (nextCount cells count) := by
  have hpos : 0 < cells.length := h.head_lt.pos
  constructor
  · rw [List.length_set]
    exact Nat.mod_lt _ hpos
  · rw [List.length_set, nextCount]
    have := h.count_le
    split <;> omega
  · rw [List.length_set, nextCount]
    intro hlt
    split at hlt
    · rename_i hcount
      rw [h.filling hcount, if_pos hcount, Nat.mod_eq_of_lt hlt]
    · contradiction

theorem rtake_snoc_of_length_lt {l : List α} {n : ℕ} (h : l.length < n) (v : α) :
    (l ++ [v]).rtake n = l ++ [v] := by
  rw [List.rtake, List.length_append, List.length_singleton, Nat.sub_eq_zero_of_le h,
    List.drop_zero]

/-- A value goes to the end, and a full buffer forgets the oldest one. -/
theorem Ok.contents_push (h : Ok cells head count) (v : α) :
    contents (cells.set head v) ((head + 1) % cells.length) (nextCount cells count) =
      (contents cells head count ++ [v]).rtake cells.length := by
  have hok := h.push v
  rcases h.count_le.lt_or_eq with hlt | rfl
  · -- the buffer fills: the value goes to the cell behind the last one
    obtain rfl := h.filling hlt
    rw [rtake_snoc_of_length_lt (by rwa [h.length_contents]), Ok.contents_filling hlt]
    have hset : (cells.set head v).take (head + 1) = cells.take head ++ [v] := by
      rw [List.take_succ_eq_append_getElem (by rwa [List.length_set]), List.getElem_set_self,
        List.take_set_of_le (le_refl head)]
    rw [nextCount, if_pos hlt] at hok ⊢
    rcases hok.count_le.lt_or_eq with hlt' | heq
    · rw [Ok.contents_filling hlt', hset]
    · rw [List.length_set] at heq
      rw [contents, hset, heq, Nat.mod_self, start, ite_self, List.rotate_zero]
  · -- the buffer is full: the value replaces the oldest one
    obtain ⟨n, hn⟩ : ∃ n, cells.length = n + 1 := ⟨cells.length - 1, by have := h.head_lt; omega⟩
    have hlast := h.head_lt
    have hdrop : cells.drop head = cells[head] :: cells.drop (head + 1) :=
      List.drop_eq_getElem_cons hlast
    have hold : (contents cells head cells.length ++ [v]).rtake cells.length =
        cells.drop (head + 1) ++ cells.take head ++ [v] := by
      rw [h.contents_full, hdrop, List.rtake]
      simp only [List.cons_append, List.length_cons, List.length_append, List.length_drop,
        List.length_take, List.length_nil]
      rw [show cells.length - (head + 1) + min head cells.length + (0 + 1) + 1 - cells.length = 1
        by omega]
      rfl
    rw [nextCount, if_neg (lt_irrefl _), hold, contents, start, List.length_set,
      if_neg (lt_irrefl _), List.take_of_length_le (List.length_set ..).le]
    have hrot : (cells.set head v).rotate ((head + 1) % cells.length) =
        (cells.set head v).rotate (head + 1) := by
      rw [← List.length_set (i := head) (a := v), List.rotate_mod]
    rw [hrot, List.rotate_eq_drop_append_take (by rw [List.length_set]; exact h.head_lt),
      List.drop_set_of_lt (Nat.lt_succ_self head), List.append_assoc,
      List.take_succ_eq_append_getElem (by rw [List.length_set]; exact h.head_lt),
      List.getElem_set_self, List.take_set_of_le (le_refl head)]

/-- Forgetting early or late makes no difference. -/
theorem rtake_snoc_rtake (l : List α) (v : α) (n : ℕ) :
    (l.rtake n ++ [v]).rtake n = (l ++ [v]).rtake n := by
  cases n with
  | zero => simp
  | succ n =>
    rw [List.rtake_concat_succ, List.rtake_concat_succ]
    congr 1
    rw [List.rtake, List.rtake, List.rtake, List.drop_drop, List.length_drop]
    congr 1
    omega

/-- A full buffer gives up its oldest value first. -/
theorem rtake_snoc_eq (l : List α) (v : α) {n : ℕ} (hn : 0 < n) :
    (l ++ [v]).rtake n =
      (if (l.rtake n).length = n then (l.rtake n).tail else l.rtake n) ++ [v] := by
  obtain ⟨m, rfl⟩ := Nat.exists_eq_add_of_lt hn
  rw [Nat.zero_add, List.rtake_concat_succ]
  congr 1
  simp only [List.rtake, List.length_drop, List.tail_drop]
  split_ifs with hlen
  · congr 1
    omega
  · congr 1
    omega

end Circular
