import KWatch.Pin.Effects

/-! # The loops over the maps

`bpf_object__unpin_maps` removes the maps up to the first one it cannot remove, and
`bpf_object__pin_maps` pins all of the maps or none, which it can when none of their names is taken.
-/

namespace KWatch

open Prog

/-! ### Unpinning -/

/-- A file that `unlink` removes stands under the name. -/
def Files.removable (s : Files) (m : Text) : Bool :=
  match s.pin m with
  | some .subdir | none => false
  | some _ => true

namespace Files

theorem removable_congr {s t : Files} {m : Text} (h : s.pin m = t.pin m) :
    s.removable m = t.removable m := by simp [removable, h]

theorem unlinkPin_of_removable {s : Files} {m : Text} (h : s.removable m = true) :
    (s.unlinkPin m).1 = .ok () ∧ (s.unlinkPin m).2.pin = Function.update s.pin m none := by
  cases hp : s.pin m with
  | none => simp [removable, hp] at h
  | some e => exact unlinkPin_of_some hp (by rintro rfl; simp [removable, hp] at h)

theorem unlinkPin_of_not_removable {s : Files} {m : Text} (h : ¬ s.removable m = true) :
    (s.unlinkPin m).2 = s ∧ ∃ e, (s.unlinkPin m).1 = .error e := by
  cases hp : s.pin m with
  | none => exact unlinkPin_of_none hp
  | some e => cases e <;> simp_all [removable, unlinkPin_of_subdir]

end Files

theorem run_unpinMaps_cons {s : Files} {m : Text} {ms : List Text} (h : s.removable m = true) :
    (unpinMaps (m :: ms)).run sys s = (unpinMaps ms).run sys (s.unlinkPin m).2 := by
  simp [unpinMaps, call, sys, (Files.unlinkPin_of_removable h).1]

theorem run_unpinMaps_stop {s : Files} {m : Text} {ms : List Text}
    (h : ¬ s.removable m = true) : ((unpinMaps (m :: ms)).run sys s).2 = s := by
  obtain ⟨hs, e, he⟩ := Files.unlinkPin_of_not_removable h
  simp [unpinMaps, call, sys, he, hs]

theorem takeWhile_congr_mem {α : Type*} {p q : α → Bool} {l : List α}
    (h : ∀ a ∈ l, p a = q a) : l.takeWhile p = l.takeWhile q := by
  induction l with
  | nil => rfl
  | cons a l ih =>
    obtain ⟨ha, hl⟩ := List.forall_mem_cons.mp h
    rw [List.takeWhile_cons, List.takeWhile_cons, ha, ih hl]

/-- `bpf_object__unpin_maps` removes the maps up to the first one it cannot remove. -/
theorem pin_unpinMaps {s : Files} {maps : List Text} (hn : maps.Nodup) (m : Text) :
    ((unpinMaps maps).run sys s).2.pin m =
      if m ∈ maps.takeWhile s.removable then none else s.pin m := by
  induction maps generalizing s with
  | nil => simp [unpinMaps]
  | cons m₀ ms ih =>
    obtain ⟨hm₀, hms⟩ := List.nodup_cons.mp hn
    by_cases h : s.removable m₀ = true
    · have hpin := (Files.unlinkPin_of_removable h).2
      have hcongr : ms.takeWhile (s.unlinkPin m₀).2.removable = ms.takeWhile s.removable := by
        refine takeWhile_congr_mem fun m hm => Files.removable_congr ?_
        rw [hpin, Function.update_of_ne (by rintro rfl; exact hm₀ hm)]
      rw [run_unpinMaps_cons h, ih hms, hcongr, List.takeWhile_cons_of_pos h, hpin]
      by_cases hm : m = m₀ <;> simp [hm]
    · rw [run_unpinMaps_stop h, List.takeWhile_cons_of_neg h]
      simp

/-- The loop, stopped after so many calls. -/
theorem runFor_unpinMaps (maps : List Text) (k : ℕ) (s : Files) :
    runFor sys k (unpinMaps maps) s = ((unpinMaps (maps.take k)).run sys s).2 := by
  induction maps generalizing k s with
  | nil => cases k <;> rfl
  | cons m ms ih =>
    cases k with
    | zero => rfl
    | succ k =>
      by_cases h : s.removable m = true
      · rw [List.take_succ_cons, run_unpinMaps_cons h, ← ih]
        simp [unpinMaps, call, runFor, sys, (Files.unlinkPin_of_removable h).1]
      · obtain ⟨hs, e, he⟩ := Files.unlinkPin_of_not_removable h
        rw [List.take_succ_cons, run_unpinMaps_stop h]
        cases k <;> simp [unpinMaps, call, runFor, sys, he, hs]

/-- The loop makes one call for every map when it can remove them all. -/
theorem count_unpinMaps {maps : List Text} (hn : maps.Nodup) {s : Files}
    (h : ∀ m ∈ maps, s.removable m = true) : (unpinMaps maps).count sys s = maps.length := by
  induction maps generalizing s with
  | nil => rfl
  | cons m ms ih =>
    obtain ⟨hm, hms⟩ := List.nodup_cons.mp hn
    obtain ⟨hr, hrs⟩ := List.forall_mem_cons.mp h
    obtain ⟨hok, hpin⟩ := Files.unlinkPin_of_removable hr
    have hrs' : ∀ m' ∈ ms, (s.unlinkPin m).2.removable m' = true := by
      intro m' hm'
      have hne : m' ≠ m := fun he => hm (he ▸ hm')
      rw [← hrs m' hm']
      apply Files.removable_congr
      rw [hpin, Function.update_of_ne hne]
    rw [List.length_cons, ← ih hms hrs']
    simp [unpinMaps, call, count, sys, hok]

/-- Whatever the loop does to an entry, it removes it. -/
theorem pin_unpinMaps_or (maps : List Text) (s : Files) (m : Text) :
    ((unpinMaps maps).run sys s).2.pin m = s.pin m ∨
      m ∈ maps ∧ ((unpinMaps maps).run sys s).2.pin m = none := by
  induction maps generalizing s with
  | nil => exact .inl rfl
  | cons m₀ ms ih =>
    by_cases h : s.removable m₀ = true
    · rw [run_unpinMaps_cons h]
      rcases ih (s.unlinkPin m₀).2 with hs | ⟨hm, hs⟩
      · rw [hs, (Files.unlinkPin_of_removable h).2]
        by_cases hm : m = m₀
        · subst hm
          exact .inr ⟨List.mem_cons_self, by simp⟩
        · exact .inl (Function.update_of_ne hm _ _)
      · exact .inr ⟨List.mem_cons_of_mem _ hm, hs⟩
    · rw [run_unpinMaps_stop h]
      exact .inl rfl

/-! ### Pinning -/

theorem run_pinMap (self : OwnerState) (m : Text) (s : Files) :
    (pinMap self m).run sys s = (s.mkdir .pinDir).2.objPin self m := by
  cases h : s.pinDir <;> simp [pinMap, call, sys, Files.mkdir, h]

theorem pin_pinMap_ok {self : OwnerState} {m : Text} {s : Files}
    (h : ((pinMap self m).run sys s).1 = .ok ()) : s.pin m = none ∧
      ((pinMap self m).run sys s).2.pin = Function.update s.pin m (some (.map self)) := by
  rw [run_pinMap] at h ⊢
  simpa only [Files.pin_mkdir] using Files.pin_objPin_ok h

theorem pin_pinMap_error {self : OwnerState} {m : Text} {s : Files} {e : Errno}
    (h : ((pinMap self m).run sys s).1 = .error e) :
    ((pinMap self m).run sys s).2.pin = s.pin := by
  rw [run_pinMap] at h ⊢
  rw [Files.objPin_error h, Files.pin_mkdir]

theorem pinMap_ok (self : OwnerState) {m : Text} {s : Files} (hd : s.pinDir ≠ .other)
    (hm : s.pin m = none) : ((pinMap self m).run sys s).1 = .ok () ∧
      ((pinMap self m).run sys s).2.pinDir ≠ .other := by
  rw [run_pinMap]
  cases h : s.pinDir with
  | absent => simp [Files.mkdir, Files.objPin, h]
  | other => exact absurd h hd
  | dir t =>
    have hk : m ∉ t.keys := Table.get?_eq_none_iff.mp (by simpa [Files.pin, h] using hm)
    simp [Files.mkdir, Files.objPin, h, hk]

/-- The pins of a state with those of some maps added. -/
def withPins (pin : Text → Option PinEntry) (self : OwnerState) (ms : List Text) (m : Text) :
    Option PinEntry :=
  if m ∈ ms then some (.map self) else pin m

@[simp] theorem withPins_nil (pin : Text → Option PinEntry) (self : OwnerState) :
    withPins pin self [] = pin := by
  ext m
  simp [withPins]

theorem withPins_cons (pin : Text → Option PinEntry) (self : OwnerState) (ms : List Text)
    (m : Text) : Function.update (withPins pin self ms) m (some (.map self)) =
      withPins pin self (m :: ms) := by
  ext m'
  by_cases h : m' = m <;> simp [withPins, h]

/-- The clean-up of a failed `bpf_object__pin_maps` restores the pins. -/
theorem pin_unpinAll {pin : Text → Option PinEntry} {self : OwnerState} {ms : List Text}
    (hn : ms.Nodup) (hfree : ∀ m ∈ ms, pin m = none) {s : Files}
    (hs : s.pin = withPins pin self ms) : ((unpinAll ms).run sys s).2.pin = pin := by
  induction ms generalizing s with
  | nil => simpa [unpinAll] using hs
  | cons m ms ih =>
    obtain ⟨hm, hms⟩ := List.nodup_cons.mp hn
    obtain ⟨hfm, hfms⟩ := List.forall_mem_cons.mp hfree
    have hrem : s.removable m = true := by simp [Files.removable, hs, withPins]
    apply ih hms hfms
    rw [show (sys (.unlinkPin m) s).2.pin = _ from (Files.unlinkPin_of_removable hrem).2, hs]
    ext m'
    by_cases h : m' = m
    · simp [h, withPins, hm, hfm]
    · simp [h, withPins]

/-- `bpf_object__pin_maps` pins all of the maps, which were free, or none. -/
theorem pin_pinMapsFrom (pin : Text → Option PinEntry) (self : OwnerState)
    (pinned maps : List Text) (hn : (pinned.reverse ++ maps).Nodup)
    (hfree : ∀ m ∈ pinned, pin m = none) {s : Files} (hs : s.pin = withPins pin self pinned) :
    (((pinMapsFrom self pinned maps).run sys s).1 = .ok () →
      (∀ m ∈ maps, pin m = none) ∧ ((pinMapsFrom self pinned maps).run sys s).2.pin =
        withPins pin self (maps.reverse ++ pinned)) ∧
    ∀ e, ((pinMapsFrom self pinned maps).run sys s).1 = .error e →
      ((pinMapsFrom self pinned maps).run sys s).2.pin = pin := by
  induction maps generalizing pinned s with
  | nil => simpa [pinMapsFrom] using hs
  | cons m ms ih =>
    simp only [pinMapsFrom, run_bind]
    cases hr : ((pinMap self m).run sys s).1 with
    | ok =>
      obtain ⟨hm, hpin⟩ := pin_pinMap_ok hr
      rw [hs, withPins_cons] at hpin
      have hmp : m ∉ pinned := by
        intro h
        have := List.disjoint_of_nodup_append hn
        exact this (by simpa using h) List.mem_cons_self
      have hfm : pin m = none := by simpa [hs, withPins, hmp] using hm
      obtain ⟨hok, herr⟩ := ih (m :: pinned) (by simpa using hn)
        (List.forall_mem_cons.mpr ⟨hfm, hfree⟩) hpin
      refine ⟨fun h => ?_, herr⟩
      obtain ⟨hall, hst⟩ := hok h
      exact ⟨List.forall_mem_cons.mpr ⟨hfm, hall⟩, by simpa using hst⟩
    | error e =>
      have hpn : pinned.Nodup := List.nodup_reverse.mp (List.Nodup.of_append_left hn)
      have hst := pin_pinMap_error hr
      simp [pin_unpinAll hpn hfree (hst.trans hs)]

theorem pin_pinMaps {self : OwnerState} {maps : List Text} (hn : maps.Nodup) (s : Files) :
    (((pinMaps self maps).run sys s).1 = .ok () → (∀ m ∈ maps, s.pin m = none) ∧
      ∀ m, ((pinMaps self maps).run sys s).2.pin m =
        if m ∈ maps then some (.map self) else s.pin m) ∧
    ∀ e, ((pinMaps self maps).run sys s).1 = .error e →
      ((pinMaps self maps).run sys s).2.pin = s.pin := by
  obtain ⟨hok, herr⟩ := pin_pinMapsFrom s.pin self [] maps (by simpa using hn)
    (by simp) (withPins_nil s.pin self).symm
  refine ⟨fun h => ⟨(hok h).1, fun m => ?_⟩, herr⟩
  rw [pinMaps, (hok h).2]
  simp [withPins]

theorem pinMapsFrom_ok {self : OwnerState} {pinned maps : List Text} (hn : maps.Nodup)
    {s : Files} (hd : s.pinDir ≠ .other) (hfree : ∀ m ∈ maps, s.pin m = none) :
    ((pinMapsFrom self pinned maps).run sys s).1 = .ok () := by
  induction maps generalizing pinned s with
  | nil => rfl
  | cons m ms ih =>
    obtain ⟨hm, hms⟩ := List.nodup_cons.mp hn
    obtain ⟨hfm, hfms⟩ := List.forall_mem_cons.mp hfree
    obtain ⟨hok, hd'⟩ := pinMap_ok self hd hfm
    simp only [pinMapsFrom, run_bind, hok]
    apply ih hms hd'
    intro m' hm'
    rw [(pin_pinMap_ok hok).2, Function.update_of_ne (by rintro rfl; exact hm hm')]
    exact hfms m' hm'

end KWatch
