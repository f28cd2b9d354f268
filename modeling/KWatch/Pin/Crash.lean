import KWatch.Pin.Recovery

/-! # Where the kill falls

An owner that started with none of its names taken leaves files from which a later start recovers,
unless it was killed in the loop of `bpf_object__unpin_maps`, after the first removal and before
the last one.
-/

namespace KWatch

open Prog

/-- None of the names is taken. -/
def Files.Free (s : Files) (maps : List Text) : Prop := ∀ m ∈ maps, s.pin m = none

variable {later procStat : ℤ → Option Text} {s t : Files} {maps : List Text} {p : OwnerState}

/-! ### Files that come first -/

theorem Files.Gapless.congr (h : s.Gapless maps) (hpin : t.pin = s.pin) : t.Gapless maps := by
  have hrem : t.removable = s.removable := by
    ext m
    exact Files.removable_congr (congrFun hpin m)
  unfold Files.Gapless
  rw [hpin, hrem]
  exact h

theorem gapless_append {ms ms' : List Text} (h : ∀ m ∈ ms, s.removable m = true)
    (h' : ∀ m ∈ ms', s.pin m = none) : s.Gapless (ms ++ ms') := by
  intro m hm
  rw [List.dropWhile_append_of_pos h] at hm
  exact h' m (List.dropWhile_sublist _ |>.subset hm)

theorem Files.Free.gapless (h : s.Free maps) : s.Gapless maps :=
  fun m hm => h m ((List.dropWhile_sublist _).subset hm)

theorem Files.Held.removable (h : s.Held maps p) : ∀ m ∈ maps, s.removable m = true :=
  fun m hm => by simp [Files.removable, h m hm]

theorem Files.Held.gapless (h : s.Held maps p) : s.Gapless maps := by
  have := gapless_append h.removable (s := s) (List.forall_mem_nil _)
  rwa [List.append_nil] at this

/-! ### Before the maps are pinned -/

def Sys.PinsNothing : Sys → Prop
  | .objPin _ _ => False
  | _ => True

theorem free_sys {c : Sys} (hc : c.PinsNothing) (h : s.Free maps) : (sys c s).2.Free maps := by
  cases c with
  | unlinkPin m =>
    by_cases hr : s.removable m = true
    · intro m' hm'
      rw [show (sys (.unlinkPin m) s).2.pin = _ from (Files.unlinkPin_of_removable hr).2]
      by_cases hm : m' = m
      · simp [hm]
      · simpa [hm] using h m' hm'
    · rw [show (sys (.unlinkPin m) s).2 = s from (Files.unlinkPin_of_not_removable hr).1]
      exact h
  | objPin o m => exact hc.elim
  | _ =>
    intro m hm
    rw [pin_sys (by trivial) s]
    exact h m hm

theorem always_free {st : PinStep} (hst : ∀ o ms, st ≠ .pinMaps o ms) (h : s.Free maps) :
    Always sys (fun t => t.Free maps) st.calls s := by
  have huses : Uses Sys.PinsNothing st.calls := (uses_may st).mono fun c hc => by
    cases c with
    | objPin o m => cases st <;> first | exact hc.elim | exact (hst _ _ rfl).elim
    | _ => trivial
  exact Uses.always (h := sys) (P := fun t : Files => t.Free maps)
    (fun c hc t ht => free_sys hc ht) huses h

theorem stays_early {α : Type} {prog : PinProg α} (hprog : Uses PinStep.Early prog)
    (h : Stays later procStat s) :
    Always sys (Stays later procStat) (prog.expand PinStep.calls) s := by
  refine hprog.always_expand (fun st hst t ht => ?_) h
  have hne : ∀ pid, st ≠ .writeOwnerPidFile pid := by
    rintro pid rfl
    exact hst
  exact stays_of_closes (uses_closes hne _) ht

theorem free_early {α : Type} {prog : PinProg α} (hprog : Uses PinStep.Early prog)
    (h : s.Free maps) :
    Always sys (fun t : Files => t.Free maps) (prog.expand PinStep.calls) s := by
  refine hprog.always_expand (fun st hst t ht => always_free ?_ ht) h
  rintro o ms rfl
  exact hst

/-! ### While the maps are pinned -/

theorem always_pinMap {P : Files → Prop} {m : Text} (h : P s) (hmk : P (s.mkdir .pinDir).2)
    (hend : P ((pinMap p m).run sys s).2) : Always sys P (pinMap p m) s := by
  rw [run_pinMap] at hend
  have hr : (s.mkdir .pinDir).1 = .ok () ∨ (s.mkdir .pinDir).1 = .error .EEXIST := by
    cases hd : s.pinDir <;> simp [Files.mkdir, hd]
  refine always_bind (p := call (.mkdir .pinDir)) ⟨h, hmk⟩ ?_
  rw [show (call (.mkdir .pinDir)).run sys s = s.mkdir .pinDir from rfl]
  rcases hr with hr | hr <;> rw [hr] <;> exact ⟨hmk, hend⟩

theorem always_pinMapsFrom (pinned ms : List Text) (hn : (pinned.reverse ++ ms).Nodup)
    (hd : s.pinDir ≠ .other) (hheld : s.Held pinned p) (hfree : s.Free ms) :
    Always sys (fun t => t.Gapless (pinned.reverse ++ ms)) (pinMapsFrom p pinned ms) s := by
  have hrev : ∀ m ∈ pinned.reverse, s.removable m = true := fun m hm =>
    hheld.removable m (List.mem_reverse.mp hm)
  induction ms generalizing pinned s with
  | nil => exact gapless_append hrev hfree
  | cons m ms ih =>
    obtain ⟨hfm, hfms⟩ := List.forall_mem_cons.mp hfree
    obtain ⟨hok, hd'⟩ := pinMap_ok p hd hfm
    have hpin := (pin_pinMap_ok hok).2
    have hnd : m ∉ pinned ∧ m ∉ ms := by
      simp only [List.nodup_append, List.mem_reverse, List.nodup_cons] at hn
      exact ⟨fun hm => hn.2.2 m hm m List.mem_cons_self rfl, hn.2.1.1⟩
    have hheld' : ((pinMap p m).run sys s).2.Held (m :: pinned) p := by
      intro m' hm'
      rw [hpin]
      rcases List.mem_cons.mp hm' with rfl | hm'
      · simp
      · have hne : m' ≠ m := fun he => hnd.1 (he ▸ hm')
        rw [Function.update_of_ne hne]
        exact hheld m' hm'
    have hfree' : ((pinMap p m).run sys s).2.Free ms := by
      intro m' hm'
      have hne : m' ≠ m := fun he => hnd.2 (he ▸ hm')
      rw [hpin, Function.update_of_ne hne]
      exact hfms m' hm'
    have hsplit : pinned.reverse ++ m :: ms = (m :: pinned).reverse ++ ms := by simp
    have hstart := gapless_append hrev hfree
    have hrest := ih (m :: pinned) (by rwa [← hsplit]) hd' hheld' hfree'
      fun m hm => hheld'.removable m (List.mem_reverse.mp hm)
    rw [← hsplit] at hrest
    apply always_bind (always_pinMap hstart (hstart.congr (s.pin_mkdir _)) hrest.start)
    rw [hok]
    exact hrest

/-! ### After the maps are pinned -/

theorem always_keepsPins (st : PinStep) (hst : st.KeepsPins) (s : Files) :
    Always sys (fun t => t.pin = s.pin) st.calls s :=
  hst.uses.always (fun _ hc t ht => (pin_sys hc t).trans ht) rfl

/-- A live process that holds its maps goes on to own them. -/
theorem always_recordOwner (hp : ownerAlive procStat p = true) (createdDir : Bool)
    (h : Stays later procStat s) (hheld : s.Held maps p) :
    Always sys (fun t => t.Gapless maps)
      ((Skeleton.recordOwner p maps createdDir).expand PinStep.calls) s := by
  have hensure : Always sys (fun t : Files => t.Gapless maps) ensureOwnerPidParent s :=
    (always_keepsPins .ensureOwnerPidParent trivial s).mono fun t => hheld.gapless.congr
  have hwrite : Always sys (fun t : Files => t.Gapless maps) (writeOwnerPidFile p.pid)
      (ensureOwnerPidParent.run sys s).2 :=
    (always_keepsPins (.writeOwnerPidFile p.pid) trivial _).mono
      fun t => hensure.end.congr
  obtain ⟨hok, -, hok'⟩ := record_ok hp h
  apply always_bind (p := ensureOwnerPidParent) hensure
  rw [hok]
  apply always_bind (p := writeOwnerPidFile p.pid) hwrite
  rw [hok']
  exact hwrite.end

/-- From free names on, every state of `pin` is without a gap. -/
theorem always_pinObject (hn : maps.Nodup) (hp : ownerAlive procStat p = true)
    (createdDir : Bool) (h : Stays later procStat s) (hfree : s.Free maps) :
    Always sys (fun t => t.Gapless maps)
      ((Skeleton.pinObject p maps createdDir).expand PinStep.calls) s := by
  have hok := (pinMaps_ok_iff (p := p) hn h.1.pinDir).mpr hfree
  have hheld : ((pinMaps p maps).run sys s).2.Held maps p := fun m hm =>
    (((pin_pinMaps hn s).1 hok).2 m).trans (if_pos hm)
  have ht : Stays later procStat ((pinMaps p maps).run sys s).2 :=
    stays_calls (.pinMaps p maps) (by simp) h
  refine always_bind (p := pinMaps p maps)
    (always_pinMapsFrom [] maps hn h.1.pinDir (List.forall_mem_nil _) hfree) ?_
  rw [hok]
  exact always_recordOwner hp createdDir ht hheld

theorem always_pin (hn : maps.Nodup) (hp : ownerAlive procStat p = true)
    (h : Stays later procStat s) (hfree : s.Free maps) :
    Always sys (fun t => t.Gapless maps) ((Skeleton.pin p maps).expand PinStep.calls) s := by
  have hopen := free_early uses_openDir hfree
  have hs := (stays_early uses_openDir h).end
  rw [Skeleton.pin, expand_bind]
  refine always_bind (hopen.mono fun t ht => ht.gapless) ?_
  cases ((Skeleton.openDir.expand PinStep.calls).run sys s).1 with
  | error e => exact hopen.end.gapless
  | ok createdDir =>
    have hreclaim := free_early (uses_reclaim maps createdDir) hopen.end
    have hs' := (stays_early (uses_reclaim maps createdDir) hs).end
    simp only [expand_bind]
    refine always_bind (hreclaim.mono fun t ht => ht.gapless) ?_
    cases (((Skeleton.reclaim maps createdDir).expand PinStep.calls).run sys _).1 with
    | error e => exact hreclaim.end.gapless
    | ok => exact always_pinObject hn hp createdDir hs' hreclaim.end

/-- What holds after `pin` has returned `Ok`. -/
theorem owned_of_pin_ok (hn : maps.Nodup) (hp : ownerAlive procStat p = true)
    (h : Stays later procStat s)
    (hok : (((Skeleton.pin p maps).expand PinStep.calls).run sys s).1 = .ok ()) :
    (((Skeleton.pin p maps).expand PinStep.calls).run sys s).2.OwnedBy maps p := by
  have hs := (stays_early uses_openDir h).end
  simp only [Skeleton.pin, expand_bind, run_bind] at hok ⊢
  cases hr : ((Skeleton.openDir.expand PinStep.calls).run sys s).1 with
  | error e => simp [hr, expand] at hok
  | ok createdDir =>
    have hs' := (stays_early (uses_reclaim maps createdDir) hs).end
    simp only [hr, expand_bind, run_bind] at hok ⊢
    cases hr' : (((Skeleton.reclaim maps createdDir).expand PinStep.calls).run sys
        ((Skeleton.openDir.expand PinStep.calls).run sys s).2).1 with
    | error e => simp [hr', expand] at hok
    | ok =>
      simp only [hr'] at hok ⊢
      obtain ⟨hiff, howned⟩ := pinObject_ok_iff hp hn createdDir hs'
      rw [pinSys, ← run_expand] at hiff howned
      exact howned (hiff.mp hok)

/-! ### While the maps are unpinned -/

theorem expand_unpin (maps : List Text) : (Skeleton.unpin maps).expand PinStep.calls =
    unpinMaps maps >>= fun _ => Skeleton.dropOwner.expand PinStep.calls := rfl

theorem uses_dropOwner : Uses PinStep.Early Skeleton.dropOwner :=
  (uses_step.mpr trivial).bind fun _ => (uses_step.mpr trivial).bind fun _ =>
    (uses_step.mpr trivial).bind fun _ => trivial

/-- The first maps are gone and the others are still there. -/
theorem not_gapless_of_take (hn : maps.Nodup) (hheld : s.Held maps p) {k : ℕ} (hk : k ≠ 0)
    (hlt : k < maps.length) (ht : ∀ m, t.pin m = if m ∈ maps.take k then none else s.pin m) :
    ¬ t.Gapless maps := by
  intro hgap
  have hmem : maps[k] ∈ maps.drop k := by
    rw [List.drop_eq_getElem_cons hlt]
    exact List.mem_cons_self
  have hnot : maps[k] ∉ maps.take k := fun h =>
    List.disjoint_take_drop hn le_rfl h hmem
  have hlast : t.pin maps[k] ≠ none := by
    rw [ht, if_neg hnot, hheld _ (List.getElem_mem hlt)]
    simp
  cases maps with
  | nil => simp at hlt
  | cons m ms =>
    have hfirst : ¬ t.removable m = true := by
      have : t.pin m = none := by
        obtain ⟨k, rfl⟩ := Nat.exists_eq_succ_of_ne_zero hk
        rw [ht, if_pos (by simp)]
      simp [Files.removable, this]
    refine hlast (hgap _ ?_)
    rw [List.dropWhile_cons_of_neg hfirst]
    exact List.getElem_mem hlt

/-- Killed in `unpin`, an owner leaves a gap exactly in the middle of the loop. -/
theorem gapless_unpin_iff (hn : maps.Nodup) (hheld : s.Held maps p) (k : ℕ) :
    (runFor sys k ((Skeleton.unpin maps).expand PinStep.calls) s).Gapless maps ↔
      k = 0 ∨ maps.length ≤ k := by
  have hcount := count_unpinMaps hn hheld.removable
  rw [expand_unpin]
  rcases lt_or_ge k maps.length with hk | hk
  · have hpin : ∀ m, (runFor sys k (unpinMaps maps) s).pin m =
        if m ∈ maps.take k then none else s.pin m := by
      intro m
      have htake : (maps.take k).takeWhile s.removable = maps.take k :=
        List.takeWhile_eq_self_iff.mpr fun m hm => hheld.removable m (List.mem_of_mem_take hm)
      rw [runFor_unpinMaps, pin_unpinMaps (hn.sublist (List.take_sublist k maps)), htake]
    rw [runFor_bind_of_lt (by rwa [hcount])]
    constructor
    · intro hgap
      by_contra hnot
      exact not_gapless_of_take hn hheld (fun h => hnot (.inl h)) hk hpin hgap
    · rintro (rfl | hle)
      · apply hheld.gapless.congr
        ext m
        simp [hpin]
      · omega
  · obtain ⟨j, rfl⟩ := Nat.exists_eq_add_of_le hk
    have hall : ((unpinMaps maps).run sys s).2.Free maps := by
      refine (gapless_iff_unpinned hn).mp hheld.gapless
    rw [← hcount, runFor_bind_add, hcount]
    exact ⟨fun _ => .inr hk, fun _ => ((free_early uses_dropOwner hall).runFor j).gapless⟩

/-! ### Recovery -/

/-- A new process takes over from a killed owner if and only if the maps that the owner left come
first. An owner that found none of the names taken leaves such maps unless it is killed between
the first and the last removal of its own `unpin`. -/
theorem recovers_iff {q : OwnerState} (hn : maps.Nodup) (hs : s.Reclaimable later)
    (hp : ownerAlive s.procStat p = true) (hdead : ownerAlive later p = false)
    (hq : ownerAlive later q = true) (c : CrashPoint) :
    (Recovered q maps (((Skeleton.pin q maps).expand PinStep.calls).run sys
        { leftover p maps s c with procStat := later }) ↔ (leftover p maps s c).Gapless maps) ∧
      (s.Free maps → (((Skeleton.pin p maps).expand PinStep.calls).run sys s).1 = .ok () →
        ((leftover p maps s c).Gapless maps ↔ ∀ k, c = .inUnpin k → k = 0 ∨ maps.length ≤ k)) := by
  have hleft := reclaimable_leftover hp hdead hs maps c
  constructor
  · have hstays : Stays later later { leftover p maps s c with procStat := later } :=
      ⟨⟨hleft.pinDir, hleft.runDir, hleft.ownerDir, hleft.ownerPid, hleft.dead⟩, rfl⟩
    exact recovered_iff_gapless hq hn hstays
  · intro hfree hok
    cases c with
    | inPin k =>
      have := (always_pin hn hp ⟨hs, rfl⟩ hfree).runFor k
      exact ⟨fun _ k h => by (cases h), fun _ => this⟩
    | inUnpin k =>
      have howned := owned_of_pin_ok hn hp ⟨hs, rfl⟩ hok
      rw [leftover, gapless_unpin_iff hn howned.1]
      exact ⟨fun h k' hk' => by (cases hk'; exact h), fun h => h k rfl⟩

theorem reclaimable_noPins (later : ℤ → Option Text) : noPins.Reclaimable later where
  pinDir := by simp [noPins]
  runDir := by simp [noPins]
  ownerDir := by simp [noPins, Files.ownerDir]
  ownerPid := by simp [noPins, Files.ownerDir, Files.ownerPid]
  dead := by simp [noPins, Files.ownerDir, Files.ownerPid]

/-- The process table once the first of two processes is gone. -/
def onlySecond (pid : ℤ) : Option Text :=
  if pid = 8 then some (sleepingStat ⟨8, 6⟩) else none

/-- A kill between the two maps of `pin`. -/
theorem recovers_in_pin : Recovered ⟨8, 6⟩ ["events".toList, "blacklist".toList]
    (((Skeleton.pin ⟨8, 6⟩ ["events".toList, "blacklist".toList]).expand PinStep.calls).run sys
      { leftover ⟨7, 5⟩ ["events".toList, "blacklist".toList] noPins (.inPin 5) with
        procStat := onlySecond }) := by
  obtain ⟨hiff, hgap⟩ := recovers_iff (p := ⟨7, 5⟩) (q := ⟨8, 6⟩)
    (show ["events".toList, "blacklist".toList].Nodup by decide) (reclaimable_noPins onlySecond)
    (by decide) (by decide) (by decide) (.inPin 5)
  exact hiff.mpr ((hgap (by simp [Files.Free, Files.pin, noPins]) rfl).mpr (by simp))

/-- A kill between the two maps of `unpin`. -/
theorem stuck_in_unpin : ownerAlive onlySecond ⟨7, 5⟩ = false ∧
    ownerAlive onlySecond ⟨8, 6⟩ = true ∧
    (((Skeleton.pin ⟨7, 5⟩ ["events".toList, "blacklist".toList]).expand PinStep.calls).run sys
      noPins).1 = .ok () ∧
    ¬ Recovered ⟨8, 6⟩ ["events".toList, "blacklist".toList]
      (((Skeleton.pin ⟨8, 6⟩ ["events".toList, "blacklist".toList]).expand PinStep.calls).run sys
        { leftover ⟨7, 5⟩ ["events".toList, "blacklist".toList] noPins (.inUnpin 1) with
          procStat := onlySecond }) := by
  have hfail : (((Skeleton.pin ⟨8, 6⟩ ["events".toList, "blacklist".toList]).expand
      PinStep.calls).run sys
        { leftover ⟨7, 5⟩ ["events".toList, "blacklist".toList] noPins (.inUnpin 1) with
          procStat := onlySecond }).1 = .error "pin failed" := rfl
  refine ⟨by decide, by decide, rfl, fun h => ?_⟩
  rw [Recovered, hfail] at h
  cases h.1

end KWatch
