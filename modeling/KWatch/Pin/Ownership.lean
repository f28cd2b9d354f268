import KWatch.Pin.Loops

/-! # One owner for an interface

Processes that run `Skeleton::pin` on one interface take turns, a step at a time. Between the check
for an owner and the removal of what looks stale another process may become the owner, so two of
them can succeed. As long as no process removes the pinned maps or the owner file of another one,
at most one of them succeeds, and what it pinned and wrote stays.
-/

namespace KWatch

open Prog Config

/-- What a process relies on: its maps stay, and once it holds all of them its owner file too. -/
structure Kept (maps : List Text) (o : OwnerState) (s t : Files) : Prop where
  procStat : t.procStat = s.procStat
  pins : ∀ m ∈ maps, s.pin m = some (.map o) → t.pin m = some (.map o)
  ownerPid : s.OwnedBy maps o → t.ownerPid = .text (ownerLine o)

section Kept

variable {maps : List Text} {o : OwnerState} {s t u : Files}

theorem Kept.refl (s : Files) : Kept maps o s s := ⟨rfl, fun _ _ h => h, fun h => h.2⟩

theorem Files.Held.kept (h : s.Held maps o) (hk : Kept maps o s t) : t.Held maps o :=
  fun m hm => hk.pins m hm (h m hm)

theorem Files.Held.step (h : s.Held maps o) (st : PinStep) (hst : st.KeepsPins) :
    (pinSys st s).2.Held maps o :=
  fun m hm => (congrFun (pin_pinSys st hst s) m).trans (h m hm)

theorem Files.OwnedBy.kept (h : s.OwnedBy maps o) (hk : Kept maps o s t) : t.OwnedBy maps o :=
  ⟨h.1.kept hk, hk.ownerPid h⟩

theorem Kept.trans (h : Kept maps o s t) (h' : Kept maps o t u) : Kept maps o s u :=
  ⟨h'.procStat.trans h.procStat, fun m hm hs => h'.pins m hm (h.pins m hm hs),
    fun hs => h'.ownerPid (hs.kept h)⟩

theorem Kept.of_pin_eq (hp : t.procStat = s.procStat) (hpin : t.pin = s.pin)
    (ho : s.OwnedBy maps o → t.ownerPid = s.ownerPid) : Kept maps o s t :=
  ⟨hp, fun _ _ h => by rw [hpin, h], fun h => (ho h).trans h.2⟩

theorem kept_pinSys {st : PinStep} (hp : st.KeepsPins) (ho : st.KeepsOwner) :
    Kept maps o s (pinSys st s).2 :=
  .of_pin_eq (procStat_pinSys st s) (pin_pinSys st hp s) fun _ => ownerPid_pinSys st ho s

end Kept

variable {ι : Type} {self : ι → OwnerState} {maps : List Text}

/-- The step removes no map and no owner file of another process. -/
def Spares (self : ι → OwnerState) (i : ι) : PinStep → Files → Prop
  | .unpinMaps ms, s => ∀ m ∈ ms, ∀ j, j ≠ i → s.pin m ≠ some (.map (self j))
  | .unlinkOwnerPid, s => ∀ j, j ≠ i → s.ownerPid ≠ .text (ownerLine (self j))
  | _, _ => True

/-- What a process guarantees to the others. -/
def KeptOthers (self : ι → OwnerState) (maps : List Text) (i : ι) (s t : Files) : Prop :=
  ∀ j, j ≠ i → Kept maps (self j) s t

theorem keptOthers_early {i : ι} {st : PinStep} {s : Files} (hst : st.Early)
    (hsp : Spares self i st s) : KeptOthers self maps i s (pinSys st s).2 := by
  intro j hj
  cases st with
  | unpinMaps ms =>
    refine ⟨procStat_pinSys _ s, fun m _ hm => ?_, fun h => ?_⟩
    · rcases pin_unpinMaps_or ms s m with he | ⟨hms, -⟩
      · exact he.trans hm
      · exact absurd hm (hsp m hms j hj)
    · rw [ownerPid_pinSys (.unpinMaps ms) trivial s, h.2]
  | unlinkOwnerPid =>
    exact .of_pin_eq (procStat_pinSys _ s) (pin_pinSys .unlinkOwnerPid trivial s)
      fun h => absurd h.2 (hsp j hj)
  | pinMaps o ms => exact hst.elim
  | writeOwnerPidFile pid => exact hst.elim
  | _ => exact kept_pinSys trivial trivial

theorem keptOthers_pinMaps (hn : maps.Nodup) (i : ι) (o : OwnerState) (s : Files) :
    KeptOthers self maps i s (pinSys (.pinMaps o maps) s).2 := by
  intro j hj
  refine ⟨procStat_pinSys _ s, fun m hms hm => ?_, fun h => ?_⟩
  · cases hr : ((pinMaps o maps).run sys s).1 with
    | ok => exact absurd (((pin_pinMaps hn s).1 hr).1 m hms) (by simp [hm])
    | error e => exact (congrFun ((pin_pinMaps hn s).2 e hr) m).trans hm
  · rw [ownerPid_pinSys (.pinMaps o maps) trivial s, h.2]

/-- While a process holds its maps, the owner file is no other's. -/
theorem keptOthers_write (hself : Function.Injective self) (hne : maps ≠ []) {i : ι} {s : Files}
    (hi : s.Held maps (self i)) (pid : ℤ) :
    KeptOthers self maps i s (pinSys (.writeOwnerPidFile pid) s).2 := by
  intro j hj
  refine .of_pin_eq (procStat_pinSys _ s) (pin_pinSys (.writeOwnerPidFile pid) trivial s)
    fun h => ?_
  obtain ⟨m, hm⟩ := List.exists_mem_of_ne_nil maps hne
  have := (hi m hm).symm.trans (h.1 m hm)
  exact absurd (hself (by simpa using this)).symm hj

/-! ### The outline of `pin` -/

/-- A process for which `pin` returned `Ok` is the owner. -/
def Owns (maps : List Text) (o : OwnerState) (r : Except String Unit) (s : Files) : Prop :=
  r = .ok () → s.OwnedBy maps o

/-- The outline of a program of one of the processes. -/
abbrev PinOutline (self : ι → OwnerState) (maps : List Text) (i : ι) {α : Type}
    (post : α → Files → Prop) : PinProg α → Files → Prop :=
  Outline pinSys (Spares self i) (Kept maps (self i)) (KeptOthers self maps i) post

theorem outline_early {i : ι} {α : Type} {p : PinProg α} (hp : Uses PinStep.Early p) {s : Files}
    (hs : ownerAlive s.procStat (self i) = true) :
    PinOutline self maps i (fun _ t => ownerAlive t.procStat (self i) = true) p s := by
  refine outline_of_uses (I := fun t : Files => ownerAlive t.procStat (self i) = true) ?_ ?_ hp hs
  · intro s t hs (hst : Kept maps (self i) s t)
    rw [hst.procStat, hs]
  · intro st hst s hs hsp
    exact ⟨keptOthers_early hst hsp, by rw [procStat_pinSys, hs]⟩

/-- Taking the pins back before an error. -/
theorem outline_giveUp {i : ι} {p : PinProg Unit} (hp : Uses PinStep.Early p) (e : String)
    {s : Files} (hs : ownerAlive s.procStat (self i) = true) :
    PinOutline self maps i (Owns maps (self i)) (p >>= fun _ => .ret (.error e)) s :=
  (outline_early hp hs).bind Kept.refl fun _ _ _ _ _ h => by cases h

theorem uses_unpin_dropCreated (createdDir : Bool) : Uses PinStep.Early
    (take (.unpinMaps maps) >>= fun _ => Skeleton.dropCreated createdDir) :=
  (uses_step.mpr trivial).bind fun _ => uses_dropCreated createdDir

/-- From the maps to the owner file. -/
theorem outline_recordOwner (hself : Function.Injective self) (hne : maps ≠ []) {i : ι}
    (createdDir : Bool) {s : Files} (hs : ownerAlive s.procStat (self i) = true)
    (hheld : s.Held maps (self i)) : PinOutline self maps i (Owns maps (self i))
      (Skeleton.recordOwner (self i) maps createdDir) s := by
  refine outline_step_bind fun t hst _ => ⟨keptOthers_early trivial trivial, ?_⟩
  have ht : ownerAlive (pinSys .ensureOwnerPidParent t).2.procStat (self i) = true := by
    rw [procStat_pinSys, hst.procStat, hs]
  cases (pinSys .ensureOwnerPidParent t).1 with
  | error e =>
    exact outline_giveUp (uses_unpin_dropCreated createdDir) e ht
  | ok =>
    apply outline_step_bind
    intro u htu _
    have hheld : u.Held maps (self i) :=
      ((hheld.kept hst).step .ensureOwnerPidParent trivial).kept htu
    refine ⟨keptOthers_write hself hne hheld _, ?_⟩
    have hu : ownerAlive u.procStat (self i) = true := by rw [htu.procStat, ht]
    have hu' : ownerAlive (pinSys (.writeOwnerPidFile (self i).pid) u).2.procStat (self i) =
        true := by rw [procStat_pinSys, hu]
    cases hr : (pinSys (.writeOwnerPidFile (self i).pid) u).1 with
    | error e => exact outline_giveUp (uses_unpin_dropCreated createdDir) e hu'
    | ok =>
      intro v hv _
      exact Files.OwnedBy.kept
        ⟨hheld.step (.writeOwnerPidFile (self i).pid) trivial, ownerPid_of_written hu hr⟩ hv

theorem outline_pinObject (hself : Function.Injective self) (hn : maps.Nodup) (hne : maps ≠ [])
    {i : ι} (createdDir : Bool) {s : Files} (hs : ownerAlive s.procStat (self i) = true) :
    PinOutline self maps i (Owns maps (self i))
      (Skeleton.pinObject (self i) maps createdDir) s := by
  refine outline_step_bind fun t hst _ => ⟨keptOthers_pinMaps hn i _ t, ?_⟩
  have ht : ownerAlive (pinSys (.pinMaps (self i) maps) t).2.procStat (self i) = true := by
    rw [procStat_pinSys, hst.procStat, hs]
  cases hr : (pinSys (.pinMaps (self i) maps) t).1 with
  | error e => exact outline_giveUp (uses_dropCreated createdDir) _ ht
  | ok =>
    apply outline_recordOwner hself hne createdDir ht
    intro m hm
    exact (((pin_pinMaps hn t).1 hr).2 m).trans (if_pos hm)

theorem outline_pin (hself : Function.Injective self) (hn : maps.Nodup) (hne : maps ≠ []) {i : ι}
    {s : Files} (hs : ownerAlive s.procStat (self i) = true) :
    PinOutline self maps i (Owns maps (self i)) (Skeleton.pin (self i) maps) s := by
  apply (outline_early uses_openDir hs).bind Kept.refl
  intro r t ht
  cases r with
  | error e => exact fun _ _ h => by cases h
  | ok createdDir =>
    apply (outline_early (uses_reclaim maps createdDir) ht).bind Kept.refl
    intro r u hu
    cases r with
    | error e => exact fun _ _ h => by cases h
    | ok => exact outline_pinObject hself hn hne createdDir hu

/-! ### Processes that take turns -/

variable [DecidableEq ι]

/-- The processes at their start. -/
def startPins (self : ι → OwnerState) (maps : List Text) (s : Files) :
    Config ι PinStep PinStep.Result Files (Except String Unit) :=
  ⟨fun i => Skeleton.pin (self i) maps, s⟩

/-- As long as no process removes what is another's, the one that succeeds is the owner. -/
theorem one_owner (hself : Function.Injective self) (hn : maps.Nodup) (hne : maps ≠ [])
    {s : Files} (hlive : ∀ i, ownerAlive s.procStat (self i) = true) {sched : List ι}
    {c : Config ι PinStep PinStep.Result Files (Except String Unit)}
    (hspares : Run.Meets (Config.step pinSys) (CallMeets (Spares self)) (startPins self maps s)
      sched)
    (hrun : Run.exec (Config.step pinSys) (startPins self maps s) sched = some c) :
    (∀ i, c.progs i = .ret (.ok ()) → c.shared.OwnedBy maps (self i)) ∧
      ∀ i j, c.progs i = .ret (.ok ()) → c.progs j = .ret (.ok ()) → i = j := by
  have hout := outlines_of_exec (fun i => (Kept.refl : ∀ s, Kept maps (self i) s s))
    (fun i s t u => Kept.trans) (fun i j hij s t h => h j (Ne.symm hij))
    (fun i => outline_pin hself hn hne (hlive i)) hspares hrun
  have howned : ∀ i, c.progs i = .ret (.ok ()) → c.shared.OwnedBy maps (self i) := by
    intro i hi
    have := hout i
    rw [hi] at this
    exact this.returned Kept.refl rfl
  refine ⟨howned, fun i j hi hj => ?_⟩
  obtain ⟨m, hm⟩ := List.exists_mem_of_ne_nil maps hne
  have := ((howned i hi).1 m hm).symm.trans ((howned j hj).1 m hm)
  exact hself (by simpa using this)

instance decidableSpares [Fintype ι] (i : ι) (st : PinStep) (s : Files) :
    Decidable (Spares self i st s) := by
  unfold Spares
  split <;> infer_instance

/-- Two processes of which `/proc` tells that they sleep. -/
def twoOwners : Bool → OwnerState
  | false => ⟨7, 5⟩
  | true => ⟨8, 6⟩

/-- One process starts after the other one. -/
theorem one_owner_in_turn : ∃ c, Run.exec (Config.step pinSys)
      (startPins twoOwners ["events".toList, "blacklist".toList] noPins)
      (List.replicate 6 false ++ List.replicate 4 true) = some c ∧
    c.progs false = .ret (.ok ()) ∧
    c.shared.OwnedBy ["events".toList, "blacklist".toList] ⟨7, 5⟩ := by
  have hlive : ∀ i, ownerAlive noPins.procStat (twoOwners i) = true := by decide
  have hspares : Run.Meets (Config.step pinSys) (CallMeets (Spares twoOwners))
      (startPins twoOwners ["events".toList, "blacklist".toList] noPins)
      (List.replicate 6 false ++ List.replicate 4 true) := by decide +kernel
  refine ⟨_, rfl, rfl, ?_⟩
  exact (one_owner (by decide) (by decide) (by decide) hlive hspares rfl).1 false rfl

/-- A process takes the maps of one that has yet to write its owner file for leftovers. -/
theorem two_owners : (∀ i, ownerAlive noPins.procStat (twoOwners i) = true) ∧
    ∃ c, Run.exec (Config.step pinSys)
      (startPins twoOwners ["events".toList, "blacklist".toList] noPins)
      (List.replicate 4 false ++ List.replicate 6 true ++ List.replicate 2 false ++
        List.replicate 2 true) = some c ∧
      c.progs false = .ret (.ok ()) ∧ c.progs true = .ret (.ok ()) := by
  exact ⟨by decide, _, rfl, rfl, rfl⟩

end KWatch
