import KWatch.Pin.Loops

/-! # The removal of stale state

`cleanup_stale_state` of `src/bpf/pin_state.cpp` refuses to touch the files of a live owner. Else it
removes the owner file and its directory, every entry of the pin directory and that directory, and
tolerates that some of them are already gone. What it leaves it would leave again.
-/

namespace KWatch

open Prog

/-- Whether something was removed, if not for an error that is not tolerated. -/
def removed (tolerated : List Errno) : Except Errno Unit → Option Bool
  | .ok () => some true
  | .error e => if e ∈ tolerated then some false else none

/-- The loop over the entries of a directory. -/
def removeEntries : List Text → SysProg (Except String Unit)
  | [] => return .ok ()
  | m :: ms => do
    match removed [.ENOENT] (← call (.unlinkPin m)) with
    | none => return .error "unlink entry failed"
    | some _ => removeEntries ms

def removeDirEntries : SysProg (Except String Unit) := do
  match ← call .readdirPin with
  | .error e => return if e = .ENOENT then .ok () else .error "open dir failed"
  | .ok names => removeEntries names

def hasActiveOwner : SysProg Bool := do
  match ← readOwnerState with
  | .error _ => return false
  | .ok owner => isOwnerAlive owner

/-- The part on the pin directory, with whether anything was removed before it. -/
def cleanupPinDir (changed : Bool) : SysProg (Except String Bool) := do
  match ← removeDirEntries with
  | .error e => return .error e
  | .ok () =>
    match removed [.ENOENT, .ENOTEMPTY] (← call .rmdirPin) with
    | none => return .error "pin dir remove failed"
    | some dir => return .ok (changed || dir)

/-- The part on the owner file and its directory. -/
def cleanupOwner : SysProg (Except String Bool) := do
  match removed [.ENOENT] (← call .unlinkOwnerPid) with
  | none => return .error "owner file unlink failed"
  | some file =>
    match removed [.ENOENT, .ENOTEMPTY] (← call .rmdirOwner) with
    | none => return .error "owner dir remove failed"
    | some dir => return .ok (file || dir)

def cleanupStaleState : SysProg (Except String Bool) := do
  if ← hasActiveOwner then return .error "active owner exists"
  else
    match ← cleanupOwner with
    | .error e => return .error e
    | .ok changed => cleanupPinDir changed

/-! ### A live owner -/

variable {s : Files}

theorem run_hasActiveOwner (s : Files) :
    (hasActiveOwner.run sys s).2 = s ∧ ((hasActiveOwner.run sys s).1 = true ↔ s.HasLiveOwner) := by
  simp only [hasActiveOwner, run_bind, run_readOwnerState]
  cases hread : s.readOwnerPid with
  | none => simp [Files.HasLiveOwner, Files.Names, hread]
  | some content =>
    cases hparse : parseOwnerState content with
    | error e => simp [Files.HasLiveOwner, Files.Names, hread, hparse]
    | ok owner => simp [Files.HasLiveOwner, Files.Names, hread, hparse, run_isOwnerAlive]

theorem cleanupStaleState_of_live (h : s.HasLiveOwner) :
    cleanupStaleState.run sys s = (.error "active owner exists", s) := by
  obtain ⟨hsame, hiff⟩ := run_hasActiveOwner s
  simp only [cleanupStaleState, run_bind, hiff.mpr h, if_true]
  exact Prod.ext rfl hsame

/-! ### What is left -/

/-- There is no owner file, and if there is its directory, something else is in it. -/
def Files.OwnerGone (s : Files) : Prop :=
  match s.runDir with
  | .absent | .dir .absent => True
  | .dir (.dir d) => d.ownerPid = .absent ∧ d.others ≠ []
  | _ => False

/-- There is no owner file and no pin directory. -/
structure Files.Cleaned (s : Files) : Prop where
  owner : s.OwnerGone
  pinDir : s.pinDir = .absent

theorem Files.OwnerGone.ownerPid (h : s.OwnerGone) : s.ownerPid = .absent := by
  unfold Files.OwnerGone at h
  split at h <;> simp_all [Files.ownerPid, Files.ownerDir]

theorem run_cleanupOwner_gone (h : s.OwnerGone) : cleanupOwner.run sys s = (.ok false, s) := by
  unfold Files.OwnerGone at h
  split at h
  · next hr => simp [cleanupOwner, call, sys, Files.unlinkOwnerPid, Files.rmdirOwner, removed,
      Files.ownerDir, hr]
  · next hr => simp [cleanupOwner, call, sys, Files.unlinkOwnerPid, Files.rmdirOwner, removed,
      Files.ownerDir, hr]
  · next d hr =>
    have hd : d ≠ ⟨.absent, []⟩ := by
      rintro rfl
      exact h.2 rfl
    simp [cleanupOwner, call, sys, Files.unlinkOwnerPid, Files.rmdirOwner, removed,
      Files.ownerDir, hr, hd, h.1]
  · exact h.elim

theorem run_cleanupOwner_ok {b : Bool} (h : (cleanupOwner.run sys s).1 = .ok b) :
    (cleanupOwner.run sys s).2.OwnerGone := by
  cases hr : s.runDir with
  | absent =>
    have hgone : s.OwnerGone := by simp [Files.OwnerGone, hr]
    rwa [run_cleanupOwner_gone hgone]
  | other => simp [cleanupOwner, call, sys, Files.unlinkOwnerPid, removed, Files.ownerDir, hr] at h
  | dir e =>
    cases e with
    | absent =>
      have hgone : s.OwnerGone := by simp [Files.OwnerGone, hr]
      rwa [run_cleanupOwner_gone hgone]
    | other =>
      simp [cleanupOwner, call, sys, Files.unlinkOwnerPid, removed, Files.ownerDir, hr] at h
    | dir d =>
      obtain ⟨f, others⟩ := d
      cases f <;> by_cases ho : others = [] <;>
        simp_all [cleanupOwner, call, sys, Files.unlinkOwnerPid, Files.rmdirOwner, removed,
          Files.ownerDir, Files.setOwnerPid, Files.OwnerGone]

/-- The entries that are left are those that were not removed. -/
theorem pin_unlinkPin_of_removed {m : Text} {b : Bool}
    (h : removed [.ENOENT] (s.unlinkPin m).1 = some b) : (s.unlinkPin m).2.pin m = none := by
  cases hp : s.pin m with
  | none => rw [(Files.unlinkPin_of_none hp).1, hp]
  | some e =>
    by_cases he : e = .subdir
    · obtain ⟨t, hd, ht⟩ := Files.pin_eq_some_iff.mp hp
      simp [Files.unlinkPin, hd, ht, he, removed] at h
    · rw [(Files.unlinkPin_of_some hp he).2, Function.update_self]

/-- A loop that reaches its end has removed all the entries it was given. -/
theorem run_removeEntries_ok {names : List Text} (hall : ∀ m, s.pin m ≠ none → m ∈ names)
    (hdir : s.PinDirExists) (hok : ((removeEntries names).run sys s).1 = .ok ()) :
    (∀ m, ((removeEntries names).run sys s).2.pin m = none) ∧
      ((removeEntries names).run sys s).2.PinDirExists ∧
      ((removeEntries names).run sys s).2.runDir = s.runDir := by
  induction names generalizing s with
  | nil =>
    refine ⟨fun m => ?_, hdir, rfl⟩
    by_contra hm
    cases hall m hm
  | cons m ms ih =>
    simp only [removeEntries, run_bind, call, run_step] at hok ⊢
    have hdir' : (sys (.unlinkPin m) s).2.PinDirExists := pinDirExists_sys (by simp) hdir
    cases hr : removed [.ENOENT] (sys (.unlinkPin m) s).1 with
    | none => simp [hr] at hok
    | some b =>
      have hrest : ∀ m', (sys (.unlinkPin m) s).2.pin m' ≠ none → m' ∈ ms := by
        intro m' hm'
        have hne : m' ≠ m := by
          rintro rfl
          exact hm' (pin_unlinkPin_of_removed hr)
        rcases pin_unlinkPin_or s m m' with hs | hs
        · have hin := hall m' (hs ▸ hm')
          exact (List.mem_cons.mp hin).resolve_left hne
        · exact absurd hs hm'
      simp only [hr] at hok
      obtain ⟨hnone, hdir'', hrun⟩ := ih hrest hdir' hok
      exact ⟨hnone, hdir'', hrun.trans (s.runDir_unlinkPin m)⟩

theorem run_removeDirEntries_ok (hok : (removeDirEntries.run sys s).1 = .ok ()) :
    (removeDirEntries.run sys s).2.runDir = s.runDir ∧
      ((removeDirEntries.run sys s).2.pinDir = .absent ∨
        (∀ m, (removeDirEntries.run sys s).2.pin m = none) ∧
          (removeDirEntries.run sys s).2.PinDirExists) := by
  cases hd : s.pinDir with
  | absent =>
    have hrun : removeDirEntries.run sys s = (.ok (), s) := by
      simp [removeDirEntries, call, sys, Files.readdirPin, hd]
    rw [hrun]
    exact ⟨rfl, .inl hd⟩
  | other => simp [removeDirEntries, call, sys, Files.readdirPin, hd] at hok
  | dir t =>
    have hrun : removeDirEntries.run sys s = (removeEntries t.keys).run sys s := by
      simp [removeDirEntries, call, sys, Files.readdirPin, hd]
    have hall : ∀ m, s.pin m ≠ none → m ∈ t.keys := by
      intro m hm
      by_contra hnot
      exact hm (by simpa [Files.pin, hd] using Table.get?_eq_none_iff.mpr hnot)
    rw [hrun] at hok ⊢
    obtain ⟨hnone, hdir, hr⟩ := run_removeEntries_ok hall ⟨t, hd⟩ hok
    exact ⟨hr, .inr ⟨hnone, hdir⟩⟩

theorem pinDir_rmdirPin_of_empty (h : s.pinDir = .absent ∨ (∀ m, s.pin m = none) ∧ s.PinDirExists) :
    s.rmdirPin.2.pinDir = .absent := by
  rcases h with habs | ⟨hnone, t, hd⟩
  · simp [Files.rmdirPin, habs]
  · simp [Files.rmdirPin, hd, keys_eq_nil_of_pin hd hnone]

theorem run_cleanupPinDir_ok {changed b : Bool}
    (hok : ((cleanupPinDir changed).run sys s).1 = .ok b) :
    ((cleanupPinDir changed).run sys s).2.runDir = s.runDir ∧
      ((cleanupPinDir changed).run sys s).2.pinDir = .absent := by
  simp only [cleanupPinDir, run_bind, call] at hok ⊢
  cases hr : (removeDirEntries.run sys s).1 with
  | error e => simp [hr] at hok
  | ok =>
    obtain ⟨hrun, hpin⟩ := run_removeDirEntries_ok hr
    simp only [hr, run_bind, run_step, sys] at hok ⊢
    rw [← hrun, ← (removeDirEntries.run sys s).2.runDir_rmdirPin]
    have habs := pinDir_rmdirPin_of_empty hpin
    cases removed [.ENOENT, .ENOTEMPTY] (removeDirEntries.run sys s).2.rmdirPin.1 <;>
      exact ⟨rfl, habs⟩

/-- A pin directory that is gone is left alone. -/
theorem run_cleanupPinDir_absent (h : s.pinDir = .absent) (changed : Bool) :
    (cleanupPinDir changed).run sys s = (.ok changed, s) := by
  simp [cleanupPinDir, removeDirEntries, call, sys, Files.readdirPin, Files.rmdirPin, removed, h]

/-! ### The whole removal -/

theorem not_hasLiveOwner (h : s.ownerPid = .absent) : ¬ s.HasLiveOwner := by
  rintro ⟨o, ⟨content, hread, -⟩, -⟩
  simp [Files.readOwnerPid, h] at hread

/-- There is nothing to do twice. -/
theorem cleanupStaleState_of_cleaned (h : s.Cleaned) :
    cleanupStaleState.run sys s = (.ok false, s) := by
  obtain ⟨hsame, hiff⟩ := run_hasActiveOwner s
  have hdead : (hasActiveOwner.run sys s).1 = false := by
    rw [Bool.eq_false_iff]
    exact fun ht => not_hasLiveOwner h.owner.ownerPid (hiff.mp ht)
  simp [cleanupStaleState, hdead, hsame, run_cleanupOwner_gone h.owner,
    run_cleanupPinDir_absent h.pinDir]

/-- A removal that succeeds leaves no owner file and no pin directory. -/
theorem cleaned_of_cleanupStaleState {changed : Bool}
    (hok : (cleanupStaleState.run sys s).1 = .ok changed) :
    (cleanupStaleState.run sys s).2.Cleaned := by
  obtain ⟨hsame, -⟩ := run_hasActiveOwner s
  simp only [cleanupStaleState, run_bind] at hok ⊢
  cases ha : (hasActiveOwner.run sys s).1 with
  | true => simp [ha] at hok
  | false =>
    simp only [ha, hsame, Bool.false_eq_true, if_false, run_bind] at hok ⊢
    cases hr : (cleanupOwner.run sys s).1 with
    | error e => simp [hr] at hok
    | ok b =>
      have hgone := run_cleanupOwner_ok hr
      simp only [hr] at hok ⊢
      obtain ⟨hrun, hpin⟩ := run_cleanupPinDir_ok hok
      refine ⟨?_, hpin⟩
      rw [Files.OwnerGone, hrun]
      exact hgone

theorem Files.Cleaned.procStat (h : s.Cleaned) (later : ℤ → Option Text) :
    { s with procStat := later }.Cleaned := ⟨h.owner, h.pinDir⟩

end KWatch
