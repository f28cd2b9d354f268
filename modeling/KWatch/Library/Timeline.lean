import Mathlib

/-! # One timeline for several

Every member of a finite family has a list of entries in the order of their moments. All entries
together have one order by moments that keeps the order inside each list.
-/

namespace Timeline

variable {ι α : Type*} (moment : α → ℕ)

/-- The order of entries by their moments, whoever they belong to. -/
def le (x y : ι × α) : Bool := moment x.2 ≤ moment y.2

variable [DecidableEq ι]

theorem filter_flatMap_tagged {is : List ι} (hn : is.Nodup) {i : ι} (hi : i ∈ is)
    (L : ι → List α) :
    (is.flatMap fun j => (L j).map (Prod.mk j)).filter (fun x => x.1 = i) =
      (L i).map (Prod.mk i) := by
  induction is with
  | nil => cases hi
  | cons j is ih =>
    obtain ⟨hj, hn⟩ := List.nodup_cons.mp hn
    rw [List.flatMap_cons, List.filter_append]
    rcases List.mem_cons.mp hi with rfl | hi
    · have hrest : (is.flatMap fun j => (L j).map (Prod.mk j)).filter (fun x => x.1 = i) = [] := by
        rw [List.filter_eq_nil_iff]
        intro x hx
        obtain ⟨k, hk, hx⟩ := List.mem_flatMap.mp hx
        obtain ⟨a, -, rfl⟩ := List.mem_map.mp hx
        simpa using fun he : k = i => hj (he ▸ hk)
      rw [hrest, List.append_nil, List.filter_eq_self]
      simp
    · have hne : j ≠ i := fun he => hj (he ▸ hi)
      have hnone : ((L j).map (Prod.mk j)).filter (fun x => x.1 = i) = [] := by
        simp [hne]
      rw [ih hn hi, hnone, List.nil_append]

/-- All entries on one timeline. -/
theorem exists_merge [Fintype ι] (L : ι → List α)
    (hL : ∀ i, (L i).Pairwise fun a b => moment a ≤ moment b) :
    ∃ M : List (ι × α), M.Pairwise (fun x y => moment x.2 ≤ moment y.2) ∧
      ∀ i, (M.filter fun x => x.1 = i).map Prod.snd = L i := by
  set all := (Finset.univ : Finset ι).toList.flatMap fun i => (L i).map (Prod.mk i) with hall
  have htrans : ∀ x y z : ι × α, le moment x y → le moment y z → le moment x z := by
    simp only [le, decide_eq_true_eq]
    exact fun _ _ _ => le_trans
  have htotal : ∀ x y : ι × α, (le moment x y || le moment y x) = true := by
    simp only [le, Bool.or_eq_true, decide_eq_true_eq]
    exact fun _ _ => le_total _ _
  have hsorted := List.pairwise_mergeSort htrans htotal all
  refine ⟨all.mergeSort (le moment), by simpa [le] using hsorted, fun i => ?_⟩
  have hfilter : all.filter (fun x => x.1 = i) = (L i).map (Prod.mk i) :=
    filter_flatMap_tagged (Finset.nodup_toList _) (by simp) L
  -- the entries of one member are in order already, so that the stable sort keeps them so
  have hsub : List.Sublist ((L i).map (Prod.mk i)) (all.mergeSort (le moment)) := by
    apply List.sublist_mergeSort htrans htotal
    · rw [List.pairwise_map]
      exact (hL i).imp fun h => decide_eq_true h
    · rw [← hfilter]
      exact List.filter_sublist
  have hsub' : List.Sublist ((L i).map (Prod.mk i))
      ((all.mergeSort (le moment)).filter fun x => x.1 = i) := by
    have h := hsub.filter fun x => x.1 = i
    rwa [List.filter_eq_self.mpr (by simp)] at h
  have hlen : ((L i).map (Prod.mk i)).length =
      ((all.mergeSort (le moment)).filter fun x => x.1 = i).length := by
    rw [← hfilter]
    exact ((List.mergeSort_perm all (le moment)).filter _).length_eq.symm
  rw [← hsub'.eq_of_length hlen, List.map_map]
  exact List.map_id _

omit moment in
/-- What is counted on the timeline is counted in one of the lists. -/
theorem countP_eq_sum [Fintype ι] (p : α → Bool) (M : List (ι × α)) :
    M.countP (fun x => p x.2) = ∑ i, ((M.filter fun x => x.1 = i).map Prod.snd).countP p := by
  induction M with
  | nil => simp
  | cons x M ih =>
    have hcons (i : ι) : (((x :: M).filter fun x => x.1 = i).map Prod.snd).countP p =
        ((M.filter fun x => x.1 = i).map Prod.snd).countP p +
          if x.1 = i then (if p x.2 then 1 else 0) else 0 := by
      by_cases hi : x.1 = i <;> simp [hi, List.countP_cons]
    rw [List.countP_cons, ih, Finset.sum_congr rfl fun i _ => hcons i, Finset.sum_add_distrib]
    simp

end Timeline
