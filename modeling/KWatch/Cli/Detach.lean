import KWatch.Cli.Listing
import KWatch.Pin.Cleanup
import KWatch.Util.Headers

/-! # The detach command

`cmd_detach` stops the owner that the owner file names, removes its state, and detaches the program
from the interface in every mode. What it leaves when it returns 0 is an interface without an
owner: the commands that need one refuse, and a second detach has nothing to do.
-/

namespace KWatch

open Prog

/-! ### The calls -/

inductive Signal | SIGTERM | SIGKILL
  deriving DecidableEq, Repr

inductive DetachCall
  | ifNametoindex (ifName : Text)
  | files (c : Sys)
  | kill (pid : ℤ) (sig : Signal)
  | usleep (us : ℕ)
  | detachXdp (ifIndex : Int32) (flags : UInt32)

/-- A call of `kill` that fails sets `errno`; libbpf returns a negative error code. -/
abbrev DetachCall.Result : DetachCall → Type
  | .ifNametoindex _ => UInt32
  | .files c => c.Result
  | .kill _ _ => Except ℤ Unit
  | .usleep _ => Unit
  | .detachXdp _ _ => ℤ

/-- What does not lie with the command, by the number of calls made so far: the interfaces, the
answers of the kernel, and what becomes of the files when an owner is signalled or waited for. -/
structure Outside where
  ifNametoindex : ℕ → Text → UInt32
  kill : ℕ → ℤ → Signal → Files → Except ℤ Unit × Files
  usleep : ℕ → ℕ → Files → Files
  detachXdp : ℕ → Int32 → UInt32 → ℤ

def detachSys (O : Outside) : Handler DetachCall DetachCall.Result (ℕ × Files)
  | .ifNametoindex ifName, (n, s) => (O.ifNametoindex n ifName, n + 1, s)
  | .files c, (n, s) => ((sys c s).1, n + 1, (sys c s).2)
  | .kill pid sig, (n, s) => ((O.kill n pid sig s).1, n + 1, (O.kill n pid sig s).2)
  | .usleep us, (n, s) => ((), n + 1, O.usleep n us s)
  | .detachXdp ifIndex flags, (n, s) => (O.detachXdp n ifIndex flags, n + 1, s)

abbrev DetachProg := Prog DetachCall DetachCall.Result

/-- A procedure that only works on the files. -/
def onFiles {α : Type} (p : SysProg α) : DetachProg α := p.expand fun c => .step (.files c)

/-! ### The command -/

def isIgnorableDetachError (err : ℤ) : Bool :=
  err = EINVAL ∨ err = ENOENT ∨ err = ENODEV ∨ err = EOPNOTSUPP ∨ err = ENOLINK

def stepUs : ℕ := 100000

/-- The loop of `wait_for_owner_exit`. -/
def waitForOwnerExit (owner : OwnerState) (timeoutUs waited : ℕ) : DetachProg Bool :=
  if _ : waited < timeoutUs then do
    if ← onFiles (isOwnerAlive owner) then
      let _ ← step (DetachCall.usleep stepUs)
      waitForOwnerExit owner timeoutUs (waited + stepUs)
    else return true
  else do
    let alive ← onFiles (isOwnerAlive owner)
    return !alive
termination_by timeoutUs - waited
decreasing_by simp only [stepUs]; omega

/-- The error for a code of `kill`. -/
def signalError (err : ℤ) : String :=
  if err = EPERM ∨ err = EACCES then "permission" else "signal failed"

/-- A process that is gone cannot be killed, which is no error. -/
def unlessGone : Except ℤ Unit → Except ℤ Unit
  | .error err => if err = ESRCH then .ok () else .error err
  | .ok () => .ok ()

/-- The part after `SIGTERM` was not enough. -/
def forceStop (owner : OwnerState) : DetachProg (Except String Bool) := do
  let r : Except ℤ Unit ← step (DetachCall.kill owner.pid .SIGKILL)
  match unlessGone r with
  | .error err => return .error (signalError err)
  | .ok () =>
    if ← waitForOwnerExit owner 1000000 0 then return .ok true
    else return .error "owner still alive"

def stopOwnerProcess (owner : OwnerState) : DetachProg (Except String Bool) := do
  if ← onFiles (isOwnerAlive owner) then
    let r : Except ℤ Unit ← step (DetachCall.kill owner.pid .SIGTERM)
    match r with
    | .error err => if err = ESRCH then return .ok false else return .error (signalError err)
    | .ok () =>
      if ← waitForOwnerExit owner 2000000 0 then return .ok true
      else forceStop owner
  else return .ok false

/-- The loop over the attach modes, with the first error that is not ignorable. -/
def detachModes (ifIndex : Int32) : List UInt32 → ℤ → DetachProg ℕ
  | [], firstError => return if firstError ≠ 0 then 69 else 0
  | flag :: flags, firstError => do
    let ret : ℤ ← step (DetachCall.detachXdp ifIndex flag)
    if ret = 0 then detachModes ifIndex flags firstError
    else if -ret = EPERM ∨ -ret = EACCES then return 77
    else if ¬ isIgnorableDetachError (-ret) ∧ firstError = 0 then detachModes ifIndex flags (-ret)
    else detachModes ifIndex flags firstError

/-- The part after the owner was stopped. -/
def cleanupAndDetach (ifIndex : Int32) : DetachProg ℕ := do
  match ← onFiles cleanupStaleState with
  | .error _ => return 69
  | .ok _ =>
    detachModes ifIndex [XDP_FLAGS_HW_MODE, XDP_FLAGS_DRV_MODE, XDP_FLAGS_SKB_MODE, 0] 0

def cmdDetach (args : List Text) : DetachProg ℕ :=
  match args with
  | [ifName] => do
    let rawIfIndex : UInt32 ← step (DetachCall.ifNametoindex ifName)
    if rawIfIndex = 0 then return 65
    else
      match ← onFiles readOwnerState with
      | .error _ => cleanupAndDetach rawIfIndex.toInt32
      | .ok owner =>
        match ← stopOwnerProcess owner with
        | .error e => return if e = "permission" then 77 else 69
        | .ok _ => cleanupAndDetach rawIfIndex.toInt32
  | _ => return 64

/-! ### Runs -/

variable {O : Outside} {s : Files} {n : ℕ}

theorem run_onFiles (O : Outside) {α : Type} (p : SysProg α) (σ : ℕ × Files) :
    ((onFiles p).run (detachSys O) σ).1 = (p.run sys σ.2).1 ∧
      ((onFiles p).run (detachSys O) σ).2.2 = (p.run sys σ.2).2 := by
  induction p generalizing σ with
  | ret a => exact ⟨rfl, rfl⟩
  | call c k ih => exact ih _ (σ.1 + 1, (sys c σ.2).2)

/-- The kernel detaches programs and leaves the files alone. -/
theorem files_detachModes (ifIndex : Int32) (flags : List UInt32) (firstError : ℤ)
    (σ : ℕ × Files) :
    ((detachModes ifIndex flags firstError).run (detachSys O) σ).2.2 = σ.2 := by
  induction flags generalizing firstError σ with
  | nil => rfl
  | cons flag flags ih =>
    simp only [detachModes, step_bind, run_call]
    split
    · exact ih _ _
    · split
      · rfl
      · split
        · exact ih _ _
        · exact ih _ _

/-- Only a removal that succeeded lets the command go on. -/
theorem run_cleanupAndDetach_zero (ifIndex : Int32) (σ : ℕ × Files) :
    Ensures (detachSys O) (fun code τ => code = 0 → τ.2.Cleaned) (cleanupAndDetach ifIndex) σ := by
  obtain ⟨hr, ht⟩ := run_onFiles O cleanupStaleState σ
  rw [Ensures, cleanupAndDetach, run_bind, hr]
  cases hc : (cleanupStaleState.run sys σ.2).1 with
  | error e =>
    intro h
    cases h
  | ok changed =>
    intro _
    rw [files_detachModes, ht]
    exact cleaned_of_cleanupStaleState hc

theorem run_cmdDetach_zero (ifName : Text) (σ : ℕ × Files) :
    Ensures (detachSys O) (fun code τ => code = 0 → τ.2.Cleaned) (cmdDetach [ifName]) σ := by
  simp only [cmdDetach, step_bind, ensures_call]
  split
  · intro h
    cases h
  · rw [Ensures, run_bind]
    split
    · exact run_cleanupAndDetach_zero _ _
    · next owner _ =>
      rw [run_bind]
      split
      · next e _ =>
        intro h
        simp only [pure_eq, run_ret] at h
        split at h <;> cases h
      · exact run_cleanupAndDetach_zero _ _

/-! ### The second time -/

/-- The interface is there, and every detach succeeds or fails with an error that is ignored. -/
structure Outside.Permits (O : Outside) (ifName : Text) : Prop where
  present : ∀ n, O.ifNametoindex n ifName ≠ 0
  detaches : ∀ n ifIndex flags,
    O.detachXdp n ifIndex flags = 0 ∨ isIgnorableDetachError (-O.detachXdp n ifIndex flags) = true

theorem not_permission_of_ignorable {err : ℤ} (h : isIgnorableDetachError err = true) :
    ¬ (err = EPERM ∨ err = EACCES) := by
  simp only [isIgnorableDetachError, decide_eq_true_eq] at h
  simp only [EPERM, EACCES, EINVAL, ENOENT, ENODEV, EOPNOTSUPP, ENOLINK] at *
  omega

theorem run_detachModes_zero {ifName : Text} (hO : O.Permits ifName) (ifIndex : Int32)
    (flags : List UInt32) (σ : ℕ × Files) :
    ((detachModes ifIndex flags 0).run (detachSys O) σ).1 = 0 := by
  induction flags generalizing σ with
  | nil => rfl
  | cons flag flags ih =>
    simp only [detachModes, step_bind, run_call]
    have hret : (detachSys O (.detachXdp ifIndex flag) σ).1 = O.detachXdp σ.1 ifIndex flag := rfl
    rw [hret]
    rcases hO.detaches σ.1 ifIndex flag with h0 | hi
    · rw [if_pos h0]
      exact ih _
    · have hperm := not_permission_of_ignorable hi
      split
      · exact ih _
      · simp only [hi, not_true_eq_false, false_and, if_false]
        exact ih _

theorem run_cleanupAndDetach_cleaned {ifName : Text} (hO : O.Permits ifName) (ifIndex : Int32)
    {σ : ℕ × Files} (h : σ.2.Cleaned) :
    Ensures (detachSys O) (fun code τ => code = 0 ∧ τ.2 = σ.2) (cleanupAndDetach ifIndex) σ := by
  obtain ⟨hr, ht⟩ := run_onFiles O cleanupStaleState σ
  rw [cleanupStaleState_of_cleaned h] at hr ht
  rw [Ensures, cleanupAndDetach, run_bind, hr]
  constructor
  · exact run_detachModes_zero hO ifIndex _ _
  · rw [files_detachModes, ht]

/-- A detach where nothing is left returns 0 and changes nothing. -/
theorem run_cmdDetach_cleaned {ifName : Text} (hO : O.Permits ifName) (h : s.Cleaned) (n : ℕ) :
    Ensures (detachSys O) (fun code τ => code = 0 ∧ τ.2 = s) (cmdDetach [ifName]) (n, s) := by
  have hmissing : readOwnerState.run sys s = (.error "owner file missing", s) := by
    simp [run_readOwnerState, Files.readOwnerPid, h.owner.ownerPid]
  have hread : Ensures (detachSys O)
      (fun r (τ : ℕ × Files) => r = .error "owner file missing" ∧ τ.2 = s)
      (onFiles readOwnerState) (n + 1, s) := by
    obtain ⟨hr, ht⟩ := run_onFiles O readOwnerState (n + 1, s)
    rw [hmissing] at hr ht
    exact ⟨hr, ht⟩
  simp only [cmdDetach, step_bind, ensures_call]
  rw [if_neg (show ¬ (detachSys O (.ifNametoindex ifName) (n, s)).1 = 0 from hO.present n)]
  apply hread.bind
  rintro r τ ⟨rfl, rfl⟩
  exact run_cleanupAndDetach_cleaned hO _ h

/-! ### The interface afterwards -/

/-- The host as the commands on an interface see it. -/
def Files.host (s : Files) (ifName : Text) (elsewhere : Host) : Host :=
  { elsewhere with
    readOwnerState := fun path =>
      if path = ownerPidPathForIface ifName then (readOwnerState.run sys s).1
      else elsewhere.readOwnerState path
    isOwnerAlive := fun owner => (isOwnerAlive owner).run sys s |>.1 }

/-- The commands that need an owner refuse, and another detach has nothing to do. -/
structure Detached (ifName : Text) (s : Files) : Prop where
  block : ∀ elsewhere arg rest t,
    cmdBlock (s.host ifName elsewhere) (ifName :: arg :: rest) t = (65, t)
  unblock : ∀ elsewhere arg rest t,
    cmdUnblock (s.host ifName elsewhere) (ifName :: arg :: rest) t = (65, t)
  list : ∀ elsewhere m, cmdList (s.host ifName elsewhere) [ifName] m = (65, [])
  stats : ∀ elsewhere m, cmdStats (s.host ifName elsewhere) [ifName] m = (65, [])
  again : ∀ (O : Outside) n, O.Permits ifName →
    ((cmdDetach [ifName]).run (detachSys O) (n, s)).1 = 0 ∧
      ((cmdDetach [ifName]).run (detachSys O) (n, s)).2.2 = s

theorem Files.Cleaned.detached (h : s.Cleaned) (ifName : Text) : Detached ifName s := by
  have hnone : ∀ elsewhere, (s.host ifName elsewhere).NoOwner ifName := by
    intro elsewhere
    refine ⟨"owner file missing", ?_⟩
    simp [Files.host, run_readOwnerState, Files.readOwnerPid, h.owner.ownerPid]
  exact {
    block := fun elsewhere => editBlacklist_of_noOwner (hnone elsewhere) .block
    unblock := fun elsewhere => editBlacklist_of_noOwner (hnone elsewhere) .unblock
    list := fun elsewhere => cmdList_of_noOwner (hnone elsewhere)
    stats := fun elsewhere => cmdStats_of_noOwner (hnone elsewhere)
    again := fun O n hO => run_cmdDetach_cleaned hO h n }

/-- The removal of stale state spares a live owner, removes everything of another one, and has
nothing to do a second time. After a detach that returns 0 the interface is and stays detached as
long as no owner starts, whatever processes come and go. -/
theorem detach_cleans (s : Files) :
    (s.HasLiveOwner → ∃ e, cleanupStaleState.run sys s = (.error e, s)) ∧
    (∀ changed t, cleanupStaleState.run sys s = (.ok changed, t) →
      t.ownerPid = .absent ∧ t.pinDir = .absent ∧ cleanupStaleState.run sys t = (.ok false, t)) ∧
    ∀ (O : Outside) (n : ℕ) (ifName : Text) (n' : ℕ) (t : Files),
      (cmdDetach [ifName]).run (detachSys O) (n, s) = (0, n', t) →
      ∀ later, Detached ifName { t with procStat := later } := by
  refine ⟨fun hlive => ⟨_, cleanupStaleState_of_live hlive⟩, ?_, ?_⟩
  · intro changed t hrun
    have hclean : t.Cleaned := by
      have h := cleaned_of_cleanupStaleState (congrArg Prod.fst hrun)
      rwa [hrun] at h
    exact ⟨hclean.owner.ownerPid, hclean.pinDir, cleanupStaleState_of_cleaned hclean⟩
  · intro O n ifName n' t hrun later
    have hclean : t.Cleaned := by
      have h := run_cmdDetach_zero (O := O) ifName (n, s) (congrArg Prod.fst hrun)
      rwa [hrun] at h
    exact (hclean.procStat later).detached ifName

/-- A kernel with one interface and no program on it. -/
def nothingAttached : Outside where
  ifNametoindex := fun _ _ => 2
  kill := fun _ _ _ s => (.error ESRCH, s)
  usleep := fun _ _ s => s
  detachXdp := fun _ _ _ => -ENOENT

/-- What an owner leaves that was killed. -/
def staleFiles : Files :=
  { noPins with
    pinDir := .dir ((Table.empty.set "blacklist".toList (.map ⟨9, 4⟩)).set "events".toList
      (.map ⟨9, 4⟩))
    runDir := .dir (.dir ⟨.text (ownerLine ⟨9, 4⟩), []⟩) }

/-- What a detach leaves of it. -/
def detachedFiles : Files := { noPins with runDir := .dir .absent }

theorem detach_cleans_stale : Detached "eth0".toList detachedFiles :=
  (detach_cleans staleFiles).2.2 nothingAttached 0 "eth0".toList 15 detachedFiles rfl
    detachedFiles.procStat

end KWatch
