import KWatch.Pin.FaultySteps

/-! # A start that fails

Every step of `Skeleton::pin` that goes forward can fail. What the call has done until then it
takes back: its maps are not pinned, no owner file names it, and a directory it made is gone. If
the owner file names a live owner and that can be read, nothing changes at all.
-/

namespace KWatch

open Prog

/-- `~Skeleton` of an object whose `pin` returned a result: only `Ok` sets the pinned path. -/
def Skeleton.destroy (maps : List Text) : Except String Unit → PinProg Unit
  | .ok () => Skeleton.unpin maps
  | .error _ => return ()

variable {F : Faults} {hist : List Sys} {s : Files} {self : OwnerState} {maps : List Text}
  {σ : List Sys × Files}

/-! ### The live owner -/

/-- The pin directory as `openDir` leaves it. -/
def Opened (s : Files) (createdDir : Bool) (t : Files) : Prop :=
  if createdDir then s.pinDir = .absent ∧ t = { s with pinDir := .dir .empty }
  else s.PinDirExists ∧ t = s

theorem run_openDir_faulty (F : Faults) (hist : List Sys) (s : Files) :
    Ensures (faultyPin F) (fun r σ => match r with
      | .error _ => σ.2 = s
      | .ok createdDir => Opened s createdDir σ.2) Skeleton.openDir (hist, s) := by
  apply (run_mkdirPin_faulty F hist s).bind
  rintro r ⟨hist', t⟩ ⟨hok, herr⟩
  cases r with
  | ok u => exact hok rfl
  | error e =>
    obtain rfl : t = s := herr e rfl
    by_cases he : e = .EEXIST
    · subst he
      apply (run_statPin_faulty F hist' t).bind
      rintro r ⟨hist'', u⟩ ⟨hu, hdir⟩
      cases r with
      | true => exact ⟨hdir rfl, hu⟩
      | false => exact hu
    · simp [he]

theorem Opened.runDir_eq {createdDir : Bool} {t : Files} (h : Opened s createdDir t) :
    t.runDir = s.runDir ∧ t.procStat = s.procStat := by
  cases createdDir with
  | true => obtain ⟨-, rfl⟩ := h; exact ⟨rfl, rfl⟩
  | false => obtain ⟨-, rfl⟩ := h; exact ⟨rfl, rfl⟩

/-- The read of the owner's identity does not fail. -/
def Faults.ReadsOwner (F : Faults) (o : OwnerState) : Prop :=
  ∀ hist, F.fails hist .readOwnerPid = false ∧ F.fails hist (.readProcStat o.pid) = false

/-- What was made for the check is taken back. -/
theorem run_rmdirPin_opened {createdDir : Bool} {t : Files} (h : Opened s createdDir t) :
    createdDir = true → (faultyPin F .rmdirPin (hist, t)).2.2 = s := by
  rintro rfl
  obtain ⟨habs, rfl⟩ := h
  have hspared := faultySys_of_spared (s := { s with pinDir := .dir .empty })
    (F.spares hist .rmdirPin trivial)
  have hstep : faultyPin F .rmdirPin (hist, { s with pinDir := .dir .empty }) =
      faultySys F .rmdirPin (hist, { s with pinDir := .dir .empty }) := rfl
  rw [hstep, hspared]
  cases s
  simp_all [sys, Files.rmdirPin, Table.keys, Table.empty]

theorem run_reclaim_live {o : OwnerState} (hnames : s.Names o)
    (halive : ownerAlive s.procStat o = true) (hread : F.ReadsOwner o) {createdDir : Bool}
    {t : Files} (ht : Opened s createdDir t) :
    Ensures (faultyPin F) (fun r σ => σ.2 = s ∧ ∃ e, r = .error e)
      (Skeleton.reclaim maps createdDir) (hist, t) := by
  obtain ⟨hrun, hproc⟩ := ht.runDir_eq
  have hnames' : t.Names o := by
    simpa only [Files.Names, Files.readOwnerPid, Files.ownerPid_congr hrun] using hnames
  have halive' : ownerAlive t.procStat o = true := by rw [hproc, halive]
  apply (run_readOwnerState_faulty F hist t).bind
  rintro r ⟨hist', t'⟩ ⟨rfl, hr⟩
  rw [readOwnerState_of_names hnames'] at hr
  rw [hr (hread hist).1]
  apply (run_isOwnerAlive_faulty F hist' t' o).bind
  rintro r ⟨hist'', t''⟩ ⟨rfl, hr⟩
  rw [hr (hread hist').2, halive']
  cases createdDir with
  | true => exact ⟨run_rmdirPin_opened ht rfl, _, rfl⟩
  | false => exact ⟨ht.2, _, rfl⟩

theorem run_pin_live {o : OwnerState} (hnames : s.Names o)
    (halive : ownerAlive s.procStat o = true) (hread : F.ReadsOwner o) :
    Ensures (faultyPin F) (fun r σ => σ.2 = s ∧ ∃ e, r = .error e) (Skeleton.pin self maps)
      (hist, s) := by
  apply (run_openDir_faulty F hist s).bind
  rintro r ⟨hist', t⟩ ht
  cases r with
  | error e => exact ⟨ht, e, rfl⟩
  | ok createdDir =>
    apply (run_reclaim_live hnames halive hread ht).bind
    rintro r σ ⟨hσ, e, rfl⟩
    exact ⟨hσ, e, rfl⟩

/-! ### Any start -/

theorem Opened.shrunk {createdDir : Bool} {t : Files} (h : Opened s createdDir t) :
    Shrunk s t ∧ t.PinDirExists ∧ (s.pinDir = .absent → createdDir = true) := by
  cases createdDir with
  | true =>
    obtain ⟨habs, rfl⟩ := h
    refine ⟨⟨fun m => .inl ?_, .inl (Files.ownerPid_congr rfl)⟩, ⟨_, rfl⟩, fun _ => rfl⟩
    simp [Files.pin, habs]
  | false =>
    obtain ⟨⟨d, hd⟩, rfl⟩ := h
    exact ⟨.refl t, ⟨d, hd⟩, by simp [hd]⟩

theorem run_reclaim_faulty {createdDir : Bool} {t : Files} (ht : Opened s createdDir t)
    (maps : List Text) (hist : List Sys) :
    Ensures (faultyPin F) (fun r σ => match r with
      | .error _ => σ.2 = s
      | .ok () => Shrunk t σ.2 ∧ σ.2.PinDirExists)
      (Skeleton.reclaim maps createdDir) (hist, t) := by
  obtain ⟨-, hdir, -⟩ := ht.shrunk
  apply (run_readOwnerState_faulty F hist t).bind
  rintro r ⟨hist', t'⟩ ⟨rfl, -⟩
  cases r with
  | ok o =>
    apply (run_isOwnerAlive_faulty F hist' t' o).bind
    rintro r ⟨hist'', t''⟩ ⟨rfl, -⟩
    cases r with
    | true =>
      cases createdDir with
      | true => exact run_rmdirPin_opened ht rfl
      | false => exact ht.2
    | false =>
      have hunpin : PinStep.Early (.unpinMaps maps) := trivial
      have hunlink : PinStep.Early .unlinkOwnerPid := trivial
      exact ⟨shrunk_step hunlink (shrunk_step hunpin (.refl t'')),
        pinDirExists_step _ (by simp) (pinDirExists_step _ (by simp) hdir)⟩
  | error e =>
    apply (run_directoryIsEmpty_faulty F hist' t').bind
    rintro r ⟨hist'', t''⟩ ⟨rfl, -⟩
    cases r with
    | true => exact ⟨.refl t'', hdir⟩
    | false =>
      have hunpin : PinStep.Early (.unpinMaps maps) := trivial
      exact ⟨shrunk_step hunpin (.refl t''), pinDirExists_step _ (by simp) hdir⟩

/-- A directory that this call created goes again once its maps have gone. -/
theorem run_dropCreated_faulty {t : Files} (hs : Shrunk s t) (hdir : t.PinDirExists)
    {createdDir : Bool} (hcreated : s.pinDir = .absent → createdDir = true) (hist : List Sys) :
    Ensures (faultyPin F) (fun _ σ => Shrunk s σ.2 ∧ (s.pinDir = .absent → σ.2.pinDir = .absent))
      (Skeleton.dropCreated createdDir) (hist, t) := by
  constructor
  · exact hs.trans ((uses_dropCreated createdDir).run_rel
      (R := fun σ τ : List Sys × Files => Shrunk σ.2 τ.2) (fun σ => .refl σ.2)
      (fun _ _ _ => Shrunk.trans) (fun _ hst σ => shrunk_step hst (.refl σ.2)) (hist, t))
  · intro habs
    have hnone : ∀ m, t.pin m = none := by
      intro m
      rcases hs.pins m with h | h
      · rw [h]
        simp [Files.pin, habs]
      · exact h
    rw [hcreated habs]
    obtain ⟨hsame, hempty⟩ := run_directoryIsEmpty_faulty F hist t
    simp only [Skeleton.dropCreated, if_true, run_bind, hempty hnone]
    rw [← hsame] at hdir hnone
    exact run_rmdirPin_of_empty hdir hnone _

/-! ### The last part of `pin` -/

/-- Nothing has come to the files, and the pin directory is there only if it was. -/
structure Undisturbed (s t : Files) : Prop where
  shrunk : Shrunk s t
  pinDir : s.pinDir = .absent → t.pinDir = .absent

/-- The rollback after the maps were pinned. -/
theorem run_rollback_faulty {t : Files} (hs : Shrunk s t) {createdDir : Bool}
    (hcreated : s.pinDir = .absent → createdDir = true)
    (hpinned : PinnedSoFar t.pin self maps.reverse σ) (howner : SameOwner t σ.2)
    (hdir : σ.2.PinDirExists) (e : String) :
    Ensures (faultyPin F) (fun _ τ => Undisturbed s τ.2) (do
      let _ ← take (.unpinMaps maps)
      Skeleton.dropCreated createdDir
      return (.error e : Except String Unit)) σ := by
  have hunpin : Shrunk s (faultyPin F (.unpinMaps maps) σ).2.2 := by
    refine hs.trans ⟨fun m => .inl (congrFun hpinned.unpinMaps m), ?_⟩
    exact sameOwner_step _ (by simp) howner
  have hdir' := pinDirExists_step (F := F) (.unpinMaps maps) (by simp) hdir
  have hdrop := run_dropCreated_faulty (F := F) hunpin hdir' hcreated
    (faultyPin F (.unpinMaps maps) σ).2.1
  rw [Ensures, run_bind, run_bind]
  exact ⟨hdrop.1, hdrop.2⟩

theorem run_recordOwner_faulty {t : Files} (hs : Shrunk s t) {createdDir : Bool}
    (hcreated : s.pinDir = .absent → createdDir = true)
    (hpinned : PinnedSoFar t.pin self maps.reverse σ) (howner : SameOwner t σ.2)
    (hdir : σ.2.PinDirExists) :
    Ensures (faultyPin F) (fun r τ => ∀ e, r = .error e → Undisturbed s τ.2)
      (Skeleton.recordOwner self maps createdDir) σ := by
  have hpinned' := hpinned.step (F := F) .ensureOwnerPidParent trivial
  have howner' := sameOwner_step (F := F) .ensureOwnerPidParent (by simp) howner
  have hdir' := pinDirExists_step (F := F) .ensureOwnerPidParent (by simp) hdir
  simp only [Skeleton.recordOwner, take, step_bind, ensures_call]
  generalize faultyPin F .ensureOwnerPidParent σ = p at hpinned' howner' hdir'
  obtain ⟨r, σ'⟩ := p
  cases r with
  | error e => exact fun _ _ => run_rollback_faulty hs hcreated hpinned' howner' hdir' e
  | ok u =>
    have hpinned'' := hpinned'.step (F := F) (.writeOwnerPidFile self.pid) trivial
    have hwrite := run_writeOwnerPidFile_faulty (F := F) self.pid σ'
    have hdir'' := pinDirExists_step (F := F) (.writeOwnerPidFile self.pid) (by simp) hdir'
    simp only [Ensures, take, run_step] at hwrite
    simp only [ensures_call]
    generalize faultyPin F (.writeOwnerPidFile self.pid) σ' = p at hpinned'' hwrite hdir''
    obtain ⟨r, σ''⟩ := p
    cases r with
    | error e =>
      exact fun _ _ => run_rollback_faulty hs hcreated hpinned'' (howner'.trans (hwrite e rfl))
        hdir'' e
    | ok u =>
      intro e he
      cases he

theorem run_pinObject_faulty {t : Files} (hs : Shrunk s t) {createdDir : Bool}
    (hcreated : s.pinDir = .absent → createdDir = true) (hdir : t.PinDirExists)
    (hist : List Sys) :
    Ensures (faultyPin F) (fun r τ => ∀ e, r = .error e → Undisturbed s τ.2)
      (Skeleton.pinObject self maps createdDir) (hist, t) := by
  have hpinned := run_pinMaps_faulty (F := F) self maps (hist, t)
  have howner := sameOwner_step (F := F) (.pinMaps self maps) (by simp)
    (σ := (hist, t)) (.inl rfl)
  have hdir' := pinDirExists_step (F := F) (.pinMaps self maps) (by simp)
    (σ := (hist, t)) hdir
  simp only [Ensures, take, run_step] at hpinned
  simp only [Skeleton.pinObject, take, step_bind, ensures_call]
  generalize faultyPin F (.pinMaps self maps) (hist, t) = p at hpinned howner hdir'
  obtain ⟨r, hist', u⟩ := p
  cases r with
  | error e =>
    have hu : Shrunk s u := hs.trans ⟨fun m => .inl (congrFun hpinned m), howner⟩
    have hdrop := run_dropCreated_faulty (F := F) hu hdir' hcreated hist'
    intro e' _
    simp only [run_bind]
    exact ⟨hdrop.1, hdrop.2⟩
  | ok u => exact run_recordOwner_faulty hs hcreated hpinned howner hdir'

/-- A `pin` that fails has only removed things. -/
theorem run_pin_undisturbed (F : Faults) (s : Files) (self : OwnerState) (maps : List Text)
    (hist : List Sys) :
    Ensures (faultyPin F) (fun r σ => ∀ e, r = .error e → Undisturbed s σ.2)
      (Skeleton.pin self maps) (hist, s) := by
  apply (run_openDir_faulty F hist s).bind
  rintro r ⟨hist', t⟩ ht
  cases r with
  | error e =>
    obtain rfl : t = s := ht
    exact fun _ _ => ⟨.refl t, id⟩
  | ok createdDir =>
    obtain ⟨hs, -, hcreated⟩ := ht.shrunk
    apply (run_reclaim_faulty (F := F) ht maps hist').bind
    rintro r ⟨hist'', u⟩ hr
    cases r with
    | error e =>
      obtain rfl : u = s := hr
      exact fun _ _ => ⟨.refl u, id⟩
    | ok => exact run_pinObject_faulty (hs.trans hr.1) hcreated hr.2 hist''

/-! ### A start that fails -/

/-- What a failed start of a process leaves: the files of a live owner that could be read as they
were, and in any case no map, no owner file and no directory of its own that was not there. -/
structure LeavesNothing (F : Faults) (p : OwnerState) (s t : Files) : Prop where
  live : ∀ o, s.Names o → ownerAlive s.procStat o = true → F.ReadsOwner o → t = s
  maps : ∀ m, t.pin m = some (.map p) → s.pin m = some (.map p)
  names : t.Names p → s.Names p ∧ s.HasLiveOwner
  pinDir : s.pinDir = .absent → t.pinDir = .absent

theorem run_pin_faulty (F : Faults) (maps : List Text) (hist : List Sys)
    (hself : ownerAlive s.procStat self = true) :
    Ensures (faultyPin F) (fun r σ => ∀ e, r = .error e → LeavesNothing F self s σ.2)
      (Skeleton.pin self maps) (hist, s) := by
  have hany := run_pin_undisturbed F s self maps hist
  intro e he
  obtain ⟨⟨hpins, howner⟩, hdir⟩ := hany e he
  constructor
  · intro o hnames halive hread
    exact (run_pin_live hnames halive hread).1
  · intro m hm
    rcases hpins m with hs | hs
    · rw [← hs, hm]
    · rw [hs] at hm
      cases hm
  · rintro ⟨content, hread, hparse⟩
    rcases howner with ho | ho
    · rw [Files.readOwnerPid, ho] at hread
      exact ⟨⟨content, hread, hparse⟩, self, ⟨content, hread, hparse⟩, hself⟩
    · simp [Files.readOwnerPid, ho] at hread
  · exact hdir

/-- Whatever forward steps fail, a `pin` that returns an error leaves nothing, and the destructor
of its object changes nothing either. -/
theorem pin_error_leaves_nothing (F : Faults) (s : Files) (self : OwnerState) (maps : List Text)
    (hself : ownerAlive s.procStat self = true) (e : String)
    (herr : ((Skeleton.pin self maps).run (faultyPin F) ([], s)).1 = .error e) :
    LeavesNothing F self s ((Skeleton.pin self maps).run (faultyPin F) ([], s)).2.2 ∧
      LeavesNothing F self s ((Skeleton.pin self maps >>= Skeleton.destroy maps).run
        (faultyPin F) ([], s)).2.2 := by
  have hpin := run_pin_faulty F maps [] hself e herr
  refine ⟨hpin, ?_⟩
  rw [run_bind, herr]
  exact hpin

/-- Every `BPF_OBJ_PIN` fails. -/
def Faults.objPins : Faults where
  fails := fun _ c => match c with | .objPin _ _ => true | _ => false
  errno := fun _ _ => .other
  written := 0
  spares := by rintro hist (_ | _) h <;> first | rfl | exact h.elim

/-- The owner file cannot be opened for reading. -/
def Faults.readsOwnerPid : Faults where
  fails := fun _ c => match c with | .readOwnerPid => true | _ => false
  errno := fun _ _ => .other
  written := 0
  spares := by rintro hist (_ | _) h <;> first | rfl | exact h.elim

/-- No map can be pinned for a process that is first on its interface. -/
theorem pin_error_leaves_nothing_objPins : LeavesNothing .objPins ⟨7, 5⟩ noPins
      ((Skeleton.pin ⟨7, 5⟩ ["blacklist".toList, "events".toList]).run
        (faultyPin .objPins) ([], noPins)).2.2 ∧
    LeavesNothing .objPins ⟨7, 5⟩ noPins
      ((Skeleton.pin ⟨7, 5⟩ ["blacklist".toList, "events".toList] >>=
        Skeleton.destroy ["blacklist".toList, "events".toList]).run
          (faultyPin .objPins) ([], noPins)).2.2 :=
  pin_error_leaves_nothing .objPins noPins ⟨7, 5⟩ ["blacklist".toList, "events".toList]
    (by decide) "pin failed" rfl

/-- A live owner without the pin of one of its maps. -/
def missingPin : Files :=
  { noPins with
    pinDir := .dir ((Table.empty.set "blacklist".toList (.map ⟨7, 5⟩)).set "events".toList
      (.map ⟨7, 5⟩))
    runDir := .dir (.dir ⟨.text (ownerLine ⟨7, 5⟩), []⟩) }

/-- When the owner file cannot be read, a start takes its owner for dead, and removes the first of
its maps before it fails. -/
theorem pin_error_unpins_live_owner :
    ¬ ∀ (F : Faults) (s : Files) (self : OwnerState) (maps : List Text) (e : String),
      ownerAlive s.procStat self = true →
      ((Skeleton.pin self maps).run (faultyPin F) ([], s)).1 = .error e →
      s.HasLiveOwner → ((Skeleton.pin self maps).run (faultyPin F) ([], s)).2.2 = s := by
  intro h
  have hlive : missingPin.HasLiveOwner := ⟨⟨7, 5⟩, ⟨ownerLine ⟨7, 5⟩, rfl, by decide⟩, by decide⟩
  have hsame := h .readsOwnerPid missingPin ⟨8, 6⟩
    ["blacklist".toList, "flow_state".toList, "events".toList] "pin failed" (by decide) rfl hlive
  have hgone : ((Skeleton.pin ⟨8, 6⟩
      ["blacklist".toList, "flow_state".toList, "events".toList]).run
        (faultyPin .readsOwnerPid) ([], missingPin)).2.2.pin "blacklist".toList = none := rfl
  rw [hsame] at hgone
  cases hgone

end KWatch
