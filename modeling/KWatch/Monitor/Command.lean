import KWatch.Library.Scope
import KWatch.Monitor.Kernel
import KWatch.Util.Headers

/-! # `kwatch run`

`src/cli/commands/run.cpp` with what it starts: the BPF object, the link, the signal descriptor, the
timer and the ring buffer. Each is released by the destructor of its owner, the last one first,
whichever `return` ends the command. A command that still waits has no result.
-/

namespace KWatch

open Prog

/-! ### Loading and attaching -/

/-- The object for a result of `kwatch_bpf__load`, or the error for `err_out`. -/
def Skeleton.loaded (err : ℤ) : MonitorProg (Except ℕ Unit) :=
  if err ≠ 0 then do
    let _ ← request .kwatchBpfDestroy
    return .error (if -err ≤ 0 then EIO else (-err).toNat)
  else return .ok ()

def Skeleton.openAndLoad (sampleN synWindowS : UInt32) : MonitorProg (Except ℕ Unit) := do
  match ← request .kwatchBpfOpen with
  | .error errno => return .error (if errno ≠ 0 then errno else EIO)
  | .ok () =>
    let err ← request (.kwatchBpfLoad (kwatchMakeRuntimeConfig sampleN synWindowS))
    Skeleton.loaded err

/-- The exit code for an error of loading or attaching. -/
def exitCode (err : ℕ) : ℕ := if err = EPERM ∨ err = EACCES then 77 else 69

namespace XdpAttach

/-- The modes to try for a requested one, with their flags and names. -/
def modes (requested : Text) : List (UInt32 × Text) :=
  if requested = "drv".toList then [(XDP_FLAGS_DRV_MODE, "drv".toList)]
  else if requested = "skb".toList then [(XDP_FLAGS_SKB_MODE, "skb".toList)]
  else if requested = "hw".toList then [(XDP_FLAGS_HW_MODE, "hw".toList)]
  else [(XDP_FLAGS_DRV_MODE, "drv".toList), (XDP_FLAGS_SKB_MODE, "skb".toList),
    (0, "generic".toList)]

/-- Try one mode after another. The error is that of the last one. -/
def tryModes (ifIndex lastErr : ℕ) :
    List (UInt32 × Text) → MonitorProg (Except ℕ (ℕ × Text))
  | [] => return .error lastErr
  | (flags, name) :: rest => do
    match ← request (.bpfLinkCreate ifIndex flags) with
    | .ok fd => return .ok (fd, name)
    | .error err => tryModes ifIndex err rest

def detach : Option ℕ → MonitorProg Unit
  | some linkFd => do let _ ← request (.close linkFd)
  | none => return ()

/-- The link and the mode in use, or the error for `err_out`. -/
def attach (ifIndex : ℕ) (linkFd : Option ℕ) (requested : Text) :
    MonitorProg (Except ℕ (ℕ × Text)) := do
  detach linkFd
  match ← request .bpfProgramFd with
  | .error _ => return .error EINVAL
  | .ok () => tryModes ifIndex 0 (modes requested)

end XdpAttach

/-! ### The sources of events -/

def SignalHandler.init : MonitorProg (Except String ℕ) := do
  match ← request .sigprocmask with
  | .error _ => return .error "sigprocmask failed"
  | .ok () =>
    match ← request .signalfd with
    | .error _ => return .error "signalfd failed"
    | .ok fd => return .ok fd

def TickTimer.init (hz : ℤ) : MonitorProg (Except String ℕ) := do
  if hz ≤ 0 then return .error "Invalid hz"
  else
    match ← request .timerfdCreate with
    | .error _ => return .error "timerfd_create failed"
    | .ok tfd =>
      match ← request (.timerfdSettime tfd (1000000000 / hz).toNat) with
      | .error _ =>
        let _ ← request (.close tfd)
        return .error "timerfd_settime failed"
      | .ok () => return .ok tfd

def RingBuf.init : MonitorProg (Except String ℕ) := do
  match ← request .ringBufferNew with
  | .error _ => return .error "ring_buffer__new failed"
  | .ok fd => return .ok fd

/-! ### The loop -/

/-- The descriptors that the loop waits for. -/
structure Sources where
  sigs : ℕ
  tick : ℕ
  ringbuf : ℕ
  deriving DecidableEq, Repr

/-- `SIGINT` and `SIGTERM`. -/
def isTermination (sig : Option ℤ) : Bool := sig = some 2 ∨ sig = some 15

/-- The ready descriptors one after another; whether one of them ends the loop. -/
def handleReady (src : Sources) : List ℕ → MonitorProg Bool
  | [] => return false
  | fd :: fds => do
    if fd = src.sigs then
      let sig ← request (.readSignal src.sigs)
      if isTermination sig then return true else handleReady src fds
    else if fd = src.ringbuf then
      let _ ← request (.ringBufferConsume 1024)
      handleReady src fds
    else if fd = src.tick then
      let _ ← request (.readTimer src.tick)
      handleReady src fds
    else handleReady src fds

/-- The loop on the wakeups that have come so far. -/
def waitLoop (src : Sources) (ep : ℕ) : List Wakeup → MonitorProg (Option Unit)
  | [] => return none
  | w :: ws => do
    match ← request (.epollWait ep w) with
    | .error errno => if errno = EINTR then waitLoop src ep ws else return some ()
    | .ok fds => if ← handleReady src fds then return some () else waitLoop src ep ws

/-! ### The command -/

/-- The exit code, and whether the object still has a pinned path for its destructor. -/
structure RunEnd where
  code : ℕ
  pinned : Bool
  deriving DecidableEq, Repr

/-- `~Skeleton`. -/
def Skeleton.release (maps : List Text) (e : RunEnd) : MonitorProg Unit := do
  if e.pinned then
    pinRequests (Skeleton.unpin maps)
    let _ ← request .kwatchBpfDestroy
  else
    let _ ← request .kwatchBpfDestroy

def closeFd (fd : ℕ) (_ : RunEnd) : MonitorProg Unit := do
  let _ ← request (.close fd)

section Run

variable (maps : List Text) (ws : List Wakeup)

/-- The loop, and `unpin` once it is left. -/
def runWaiting (src : Sources) (ep : ℕ) : MonitorProg (Option RunEnd) := do
  match ← waitLoop src ep ws with
  | none => return none
  | some () =>
    pinRequests (Skeleton.unpin maps)
    return some ⟨0, false⟩

/-- From `epoll_create1` on. -/
def runLoop (src : Sources) : MonitorProg (Option RunEnd) := do
  match ← request .epollCreate1 with
  | .error _ => return some ⟨125, true⟩
  | .ok ep => owning (closeFd ep) do
    let _ ← request (.epollCtlAdd ep src.sigs)
    let _ ← request (.epollCtlAdd ep src.tick)
    let _ ← request (.epollCtlAdd ep src.ringbuf)
    runWaiting maps ws src ep

/-- With the ring buffer, whose destructor does nothing unless it was made. -/
def runRingbuf (sigs tick : ℕ) : MonitorProg (Option RunEnd) := do
  match ← RingBuf.init with
  | .error _ => return some ⟨125, true⟩
  | .ok ringbuf => owning (closeFd ringbuf) (runLoop maps ws ⟨sigs, tick, ringbuf⟩)

def runTick (sigs : ℕ) : MonitorProg (Option RunEnd) := do
  match ← TickTimer.init 2 with
  | .error _ => return some ⟨125, true⟩
  | .ok tick => owning (closeFd tick) (runRingbuf maps ws sigs tick)

def runSigs : MonitorProg (Option RunEnd) := do
  match ← SignalHandler.init with
  | .error _ => return some ⟨125, true⟩
  | .ok sigs => owning (closeFd sigs) (runTick maps ws sigs)

/-- With the link. -/
def runAttached (ifIndex : ℕ) (xdpMode : Text) : MonitorProg (Option RunEnd) := do
  match ← XdpAttach.attach ifIndex none xdpMode with
  | .error err => return some ⟨exitCode err, true⟩
  | .ok link => owning (fun _ => XdpAttach.detach (some link.1)) (runSigs maps ws)

/-- With the loaded object. -/
def runLoaded (self : OwnerState) (ifIndex : ℕ) (xdpMode : Text) : MonitorProg (Option RunEnd) :=
  owning (Skeleton.release maps) do
    match ← pinRequests (Skeleton.pin self maps) with
    | .error _ => return some ⟨69, false⟩
    | .ok () => runAttached maps ws ifIndex xdpMode

/-- The command on an interface, up to its exit code. The window of the SYN counters is the default
of 10 seconds. -/
def runIndex (self : OwnerState) (globals : GlobalOptions) (ifIndex : ℕ) :
    MonitorProg (Option ℕ) :=
  if ifIndex = 0 then return some 65
  else do
    match ← Skeleton.openAndLoad globals.sampleN 10 with
    | .error err => return some (exitCode err)
    | .ok () =>
      let e ← runLoaded maps ws self ifIndex globals.xdpMode
      return Option.map RunEnd.code e

def cmdRun (self : OwnerState) (globals : GlobalOptions) (args : List Text) :
    MonitorProg (Option ℕ) := do
  match args with
  | [ifName] =>
    let ifIndex ← request (.ifNametoindex ifName)
    runIndex maps ws self globals ifIndex
  | _ => return some 64

end Run

end KWatch
