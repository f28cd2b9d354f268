import KWatch.Cli.Detach
import KWatch.Cli.Stats
import KWatch.Monitor.Lifecycle

/-! # Commands beside a monitoring process

The commands on an interface find the maps of a monitoring process while it waits, and refuse once
it has returned. A second process on the interface is refused as long as the first one waits.
-/

namespace KWatch

open Prog

variable {K : Kernel} {ws : List Wakeup} {maps : List Text} {self : OwnerState}
  {globals : GlobalOptions} {args : List Text} {fds : Table ℕ Descriptor} {s files : Files}
  {t : Monitor} {ifName : Text}

/-- `BPF_OBJ_GET` of a path in the pin directory: a descriptor if a map is pinned there. -/
def Files.bpfObjGet (s : Files) (ifName path : Text) : ℤ :=
  let dir := pinPathForIface ifName ++ ['/']
  if dir <+: path then
    match s.pin (path.drop dir.length) with
    | some (.map _) => 3
    | _ => -ENOENT
  else -ENOENT

/-- The host of the commands on an interface, with its pinned maps. -/
def Files.commandHost (s : Files) (ifName : Text) : Host :=
  s.host ifName
    { readOwnerState := fun _ => .error "owner file missing"
      isOwnerAlive := fun _ => false
      bpfObjGet := s.bpfObjGet ifName }

theorem bpfObjGet_of_pinned {m : Text} {o : OwnerState} (h : s.pin m = some (.map o)) :
    s.bpfObjGet ifName (pinPathForIface ifName ++ '/' :: m) = 3 := by
  have hpath : pinPathForIface ifName ++ '/' :: m = (pinPathForIface ifName ++ ['/']) ++ m := by
    simp
  rw [Files.bpfObjGet, hpath]
  simp only [List.prefix_append, if_true, List.drop_left, h]

/-- A live process is named by its own line. -/
theorem names_self (hpid : self.pid ≤ 2147483647) (hticks : self.startTimeTicks ≠ 0)
    {procStat : ℤ → Option Text} (halive : ownerAlive procStat self = true)
    (hline : s.ownerPid = .text (ownerLine self)) : s.Names self := by
  have hpos : 0 < self.pid := by
    by_contra hneg
    simp [ownerAlive, statOf, if_pos (not_lt.mp hneg)] at halive
  refine ⟨ownerLine self, by rw [Files.readOwnerPid, hline], ?_⟩
  rw [parseOwnerState_ownerLine, if_pos ⟨hpos, hpid, hticks⟩]

/-- The commands on an interface work on the maps of a process. -/
structure Reachable (ifName : Text) (o : OwnerState) (s : Files) : Prop where
  blacklist : s.pin "blacklist".toList = some (.map o)
  pktCounts : s.pin "pkt_counts".toList = some (.map o)
  edit : ∀ (v : Verb) (arg : Text) (rest : List Text) (trie : LpmTrie),
    let r := (arg :: rest).foldl (editOne v) (true, trie)
    editBlacklist v (s.commandHost ifName) (ifName :: arg :: rest) trie =
      (if r.1 then 0 else 65, r.2)
  list : ∀ m, cmdList (s.commandHost ifName) [ifName] m = (0, (m.scan none).map listLine)
  stats : ∀ m, cmdStats (s.commandHost ifName) [ifName] m =
    (0, statsHeading :: (m.scan (some 0)).map statsLine)

/-- The commands on an interface refuse and change nothing. -/
structure Unreachable (ifName : Text) (s : Files) : Prop where
  edit : ∀ (v : Verb) (arg : Text) (rest : List Text) (trie : LpmTrie),
    editBlacklist v (s.commandHost ifName) (ifName :: arg :: rest) trie = (65, trie)
  list : ∀ m, cmdList (s.commandHost ifName) [ifName] m = (65, [])
  stats : ∀ m, cmdStats (s.commandHost ifName) [ifName] m = (65, [])

theorem reachable_of_owned (hnames : s.Names self) (halive : ownerAlive s.procStat self = true)
    (hheld : s.Held maps self) (hblack : "blacklist".toList ∈ maps)
    (hcounts : "pkt_counts".toList ∈ maps) (ifName : Text) : Reachable ifName self s := by
  have howner : (s.commandHost ifName).readOwnerState (ownerPidPathForIface ifName) = .ok self := by
    simp [Files.commandHost, Files.host, readOwnerState_of_names hnames]
  have hlive : (s.commandHost ifName).isOwnerAlive self = true := by
    simp [Files.commandHost, Files.host, run_isOwnerAlive, halive]
  have hget : ∀ m ∈ maps,
      (s.commandHost ifName).bpfObjGet (pinPathForIface ifName ++ '/' :: m) = 3 :=
    fun m hm => bpfObjGet_of_pinned (hheld m hm)
  have hfd : getBlacklistFd (s.commandHost ifName) ifName = 3 := by
    simp only [getBlacklistFd, howner, hlive, if_true]
    exact hget _ hblack
  have hserves : (s.commandHost ifName).ServesStats ifName := by
    refine ⟨⟨self, howner, hlive⟩, ?_⟩
    rw [show "/pkt_counts".toList = '/' :: "pkt_counts".toList from rfl, hget _ hcounts]
    decide
  refine ⟨hheld _ hblack, hheld _ hcounts, fun v arg rest trie => ?_, fun m => ?_,
    cmdStats_of_serves hserves⟩
  · simp [editBlacklist, hfd]
  · simp [cmdList, hfd]

theorem unreachable_of_not_live (h : ¬ s.HasLiveOwner) (ifName : Text) : Unreachable ifName s := by
  have hread : (s.commandHost ifName).readOwnerState (ownerPidPathForIface ifName) =
      (readOwnerState.run sys s).1 := by
    simp [Files.commandHost, Files.host]
  have halive : ∀ o, (s.commandHost ifName).isOwnerAlive o = ownerAlive s.procStat o := by
    intro o
    simp [Files.commandHost, Files.host, run_isOwnerAlive]
  -- Either the owner file names nobody, or the process that it names is dead.
  have hdead : ∀ o, (readOwnerState.run sys s).1 = .ok o → ownerAlive s.procStat o = false := by
    intro o ho
    by_contra hlive
    refine h ⟨o, ?_, Bool.not_eq_false _ ▸ hlive⟩
    rw [run_readOwnerState] at ho
    cases hc : s.readOwnerPid with
    | none => simp [hc] at ho
    | some content => exact ⟨content, hc, by simpa [hc] using ho⟩
  cases hr : (readOwnerState.run sys s).1 with
  | error e =>
    have hnone : (s.commandHost ifName).NoOwner ifName := ⟨e, hread.trans hr⟩
    exact ⟨editBlacklist_of_noOwner hnone, cmdList_of_noOwner hnone, cmdStats_of_noOwner hnone⟩
  | ok o =>
    have hfd : getBlacklistFd (s.commandHost ifName) ifName = -1 := by
      simp [getBlacklistFd, hread, hr, halive, hdead o hr]
    refine ⟨fun v arg rest trie => ?_, fun m => ?_, fun m => ?_⟩
    · simp [editBlacklist, hfd]
    · simp [cmdList, hfd]
    · simp [cmdStats, hread, hr, halive, hdead o hr]

/-- While a process waits the commands work on its maps, and once it has returned they refuse,
unless there was another owner before. -/
theorem commands_follow_run (hself : ownerAlive files.procStat self = true)
    (hpid : self.pid ≤ 2147483647) (hticks : self.startTimeTicks ≠ 0)
    (hblack : "blacklist".toList ∈ maps) (hcounts : "pkt_counts".toList ∈ maps) {r : Option ℕ}
    (hrun : (cmdRun maps ws self globals args).run (monitorSys K) (.start fds files) = (r, t)) :
    match r with
    | none => ∃ ifName, args = [ifName] ∧ Reachable ifName self t.files.2
    | some _ => ¬ files.HasLiveOwner → ∀ ifName, Unreachable ifName t.files.2 := by
  have h := run_cmdRun K ws maps fds globals args hself
  rw [Ensures, hrun] at h
  cases r with
  | none =>
    have hw : Watching K maps globals ws self args (.start fds files) t := h
    obtain ⟨ifName, hargs, -⟩ := hw.linked
    have halive : ownerAlive t.files.2.procStat self = true := by
      rw [hw.procStat]
      exact hself
    exact ⟨ifName, hargs,
      reachable_of_owned (names_self hpid hticks hself hw.owner) halive hw.held hblack hcounts _⟩
  | some code =>
    have hr : Returned K globals ws self args (.start fds files) code t := h
    intro hnone ifName
    refine unreachable_of_not_live (fun hlive => hnone ?_) ifName
    obtain ⟨o, ⟨content, hread, hparse⟩, halive⟩ := hlive
    rw [hr.procStat] at halive
    rcases hr.owner with ho | ho
    · exact ⟨o, ⟨content, by rwa [Files.readOwnerPid, ho] at hread, hparse⟩, halive⟩
    · simp [Files.readOwnerPid, ho] at hread

/-- A run that waits, and one that `SIGTERM` has ended, with no owner before it. -/
theorem commands_follow_run_blocks : (∃ t,
    (cmdRun ["blacklist".toList, "pkt_counts".toList] [] ⟨7, 5⟩ {} ["eth0".toList]).run
      (monitorSys .steady) (.start .empty noPins) = (none, t) ∧
    ∃ ifName, ["eth0".toList] = [ifName] ∧ Reachable ifName ⟨7, 5⟩ t.files.2) ∧
    ∃ t, (cmdRun ["blacklist".toList, "pkt_counts".toList] [⟨[], [15], .ok [2]⟩] ⟨7, 5⟩ {}
      ["eth0".toList]).run (monitorSys .steady) (.start .empty noPins) = (some 0, t) ∧
    ∀ ifName, Unreachable ifName t.files.2 := by
  constructor
  · obtain ⟨t, hrun⟩ : ∃ t,
        (cmdRun ["blacklist".toList, "pkt_counts".toList] [] ⟨7, 5⟩ {} ["eth0".toList]).run
          (monitorSys .steady) (.start .empty noPins) = (none, t) := ⟨_, rfl⟩
    exact ⟨t, hrun, commands_follow_run rfl (by decide) (by decide) (by decide) (by decide) hrun⟩
  · obtain ⟨t, hrun⟩ : ∃ t,
        (cmdRun ["blacklist".toList, "pkt_counts".toList] [⟨[], [15], .ok [2]⟩] ⟨7, 5⟩ {}
          ["eth0".toList]).run (monitorSys .steady) (.start .empty noPins) = (some 0, t) :=
      ⟨_, rfl⟩
    exact ⟨t, hrun, commands_follow_run rfl (by decide) (by decide) (by decide) (by decide) hrun
      (not_hasLiveOwner rfl)⟩

/-! ### A second process -/

/-- No other process can get past the first one's pins, and it takes nothing from them. -/
theorem second_run_refused (hself : ownerAlive files.procStat self = true)
    (hpid : self.pid ≤ 2147483647) (hticks : self.startTimeTicks ≠ 0)
    (hfirst : (cmdRun maps ws self globals args).run (monitorSys K) (.start fds files) = (none, t))
    {K' : Kernel} {ws' : List Wakeup} {maps' : List Text} {o : OwnerState}
    {globals' : GlobalOptions} {args' : List Text} {fds' : Table ℕ Descriptor}
    {r : Option ℕ} {u : Monitor} (hother : ownerAlive files.procStat o = true)
    (hread : K'.faults.ReadsOwner self)
    (hsecond : (cmdRun maps' ws' o globals' args').run (monitorSys K')
      (.start fds' t.files.2) = (r, u)) :
    ∃ code, r = some code ∧ code ≠ 0 ∧ u.files.2 = t.files.2 ∧ u.fds = fds' ∧ Silent u := by
  have hw : Watching K maps globals ws self args (.start fds files) t := by
    have h := run_cmdRun K ws maps fds globals args hself
    rw [Ensures, hfirst] at h
    exact h
  have hproc : t.files.2.procStat = files.procStat := hw.procStat
  have halive : ownerAlive t.files.2.procStat self = true := by
    rw [hproc]
    exact hself
  have hnames := names_self hpid hticks halive hw.owner
  have hother' : ownerAlive t.files.2.procStat o = true := by
    rw [hproc]
    exact hother
  have h := run_cmdRun K' ws' maps' fds' globals' args' hother'
  rw [Ensures, hsecond] at h
  cases r with
  | none =>
    have hw' : Watching K' maps' globals' ws' o args' (.start fds' t.files.2) u := h
    exact absurd hread (hw'.unowned self hnames halive)
  | some code =>
    have hr : Returned K' globals' ws' o args' (.start fds' t.files.2) code u := h
    refine ⟨code, rfl, ?_, hr.files.live self hnames halive hread, hr.fds, ?_⟩
    · rintro rfl
      cases hr.cause with
      | refused hcode _ => simp [Monitor.Refused] at hcode
      | stopped hfree _ => exact hfree self hnames halive hread
    · cases hr.cause with
      | usage _ hs => exact hs
      | noInterface _ _ hs => exact hs
      | refused _ hs => exact hs
      | stopped hfree _ => exact absurd hread (hfree self hnames halive)

/-- A start while another process waits on the interface. -/
theorem second_run_refused_eth0 : ∃ t r u,
    (cmdRun ["blacklist".toList] [] ⟨7, 5⟩ {} ["eth0".toList]).run (monitorSys .steady)
      (.start .empty noPins) = (none, t) ∧
    (cmdRun ["blacklist".toList] [] ⟨8, 6⟩ {} ["eth0".toList]).run (monitorSys .steady)
      (.start .empty t.files.2) = (r, u) ∧
    ∃ code, r = some code ∧ code ≠ 0 ∧ u.files.2 = t.files.2 ∧ u.fds = .empty ∧ Silent u := by
  obtain ⟨t, hfirst⟩ : ∃ t,
      (cmdRun ["blacklist".toList] [] ⟨7, 5⟩ {} ["eth0".toList]).run (monitorSys .steady)
        (.start .empty noPins) = (none, t) := ⟨_, rfl⟩
  obtain ⟨r, u, hsecond⟩ : ∃ r u,
      (cmdRun ["blacklist".toList] [] ⟨8, 6⟩ {} ["eth0".toList]).run (monitorSys .steady)
        (.start .empty t.files.2) = (r, u) := ⟨_, _, rfl⟩
  exact ⟨t, r, u, hfirst, hsecond, second_run_refused rfl (by decide) (by decide) hfirst rfl
    (fun _ => ⟨rfl, rfl⟩) hsecond⟩

end KWatch
