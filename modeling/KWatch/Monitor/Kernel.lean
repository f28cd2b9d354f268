import KWatch.Cli.Parser
import KWatch.Pin.Stop
import KWatch.Ring.Consume
import KWatch.Xdp.Effects

/-! # A monitoring process and its kernel

What `kwatch run` works on: its open descriptors, its BPF object with the maps, the files of the
interface, the signals that wait for it, and the reader of the ring buffer. The kernel decides which
calls fail, and what arrives while the process waits.
-/

namespace KWatch

/-- What an open descriptor stands for. An open link keeps the program on the interface. -/
inductive Descriptor
  | other
  | link (ifIndex : ℕ) (flags : UInt32)
  | signalfd
  | timerfd (intervalNs : ℕ)
  | ring
  | epoll (interest : List ℕ)
  deriving DecidableEq, Repr

def Descriptor.isLink : Descriptor → Bool
  | link _ _ => true
  | _ => false

/-- What comes through the process: its maps, the events it has read, and the signals that wait. -/
structure Traffic where
  config : KwatchRuntimeConfig
  maps : Maps
  ring : RingBuf
  signals : List ℤ

structure Monitor extends Traffic where
  /-- The errors, if any, of the calls so far that could fail. -/
  answers : List (Option ℕ)
  fds : Table ℕ Descriptor
  /-- The open BPF objects. -/
  objects : ℕ
  files : List Sys × Files

/-- What happens while the process waits: packets and signals arrive, and `epoll_wait` returns the
descriptors that are ready, or an error. What arrives while the process handles these descriptors is
part of what arrived before. -/
structure Wakeup where
  arrivals : List Arrival
  signals : List ℤ
  result : Except ℕ (List ℕ)

/-- What the kernel decides. -/
structure Kernel where
  /-- The error of a call, by the number of the call. -/
  errno : ℕ → Option ℕ
  loadResult : ℕ → ℤ
  ifNametoindex : Text → ℕ
  alloc : Table ℕ Descriptor → ℕ
  alloc_fresh : ∀ t, alloc t ∉ t.keys
  faults : Faults
  consumer : RingBuf.Consumer

/-- The calls of the process. -/
inductive Request
  | ifNametoindex (name : Text)
  | kwatchBpfOpen
  | kwatchBpfLoad (config : KwatchRuntimeConfig)
  | kwatchBpfDestroy
  | pin (st : PinStep)
  | bpfProgramFd
  | bpfLinkCreate (ifIndex : ℕ) (flags : UInt32)
  | sigprocmask
  | signalfd
  | timerfdCreate
  | timerfdSettime (fd intervalNs : ℕ)
  | ringBufferNew
  | epollCreate1
  | epollCtlAdd (ep fd : ℕ)
  | epollWait (ep : ℕ) (w : Wakeup)
  | readSignal (fd : ℕ)
  | readTimer (fd : ℕ)
  | ringBufferConsume (budget : UInt64)
  | close (fd : ℕ)

abbrev Request.Result : Request → Type
  | .ifNametoindex _ => ℕ
  | .kwatchBpfLoad _ => ℤ
  | .pin st => st.Result
  | .kwatchBpfOpen | .bpfProgramFd | .sigprocmask | .timerfdSettime _ _ => Except ℕ Unit
  | .bpfLinkCreate _ _ | .signalfd | .timerfdCreate | .ringBufferNew | .epollCreate1 => Except ℕ ℕ
  | .epollWait _ _ => Except ℕ (List ℕ)
  | .readSignal _ => Option ℤ
  | .kwatchBpfDestroy | .epollCtlAdd _ _ | .readTimer _ | .ringBufferConsume _ | .close _ => Unit

namespace Monitor

/-- A process before its first call. -/
def start (fds : Table ℕ Descriptor) (files : Files) : Monitor :=
  ⟨⟨⟨0, 0⟩, .empty, .new, []⟩, [], fds, 0, ([], files)⟩

def attached (s : Monitor) : Bool := s.fds.entries.any fun e => e.2.isLink

/-- The packets pass the program as long as it is attached. -/
def receive (w : Wakeup) (s : Monitor) : Monitor :=
  { s with
    maps := if s.attached then (xdpRun s.config s.maps w.arrivals).getD s.maps else s.maps
    signals := s.signals ++ w.signals }

/-- The data of a ready descriptor is what it was registered with. At most three are returned. -/
def ready (ep : ℕ) (fds : List ℕ) (s : Monitor) : List ℕ :=
  match s.fds.get? ep with
  | some (.epoll interest) => (fds.filter (· ∈ interest)).take 3
  | _ => []

def register (ep fd : ℕ) (s : Monitor) : Monitor :=
  match s.fds.get? ep with
  | some (.epoll interest) => { s with fds := s.fds.set ep (.epoll (interest ++ [fd])) }
  | _ => s

def readSignal (fd : ℕ) (s : Monitor) : Option ℤ × Monitor :=
  match s.fds.get? fd, s.signals with
  | some .signalfd, sig :: signals => (some sig, { s with signals := signals })
  | _, _ => (none, s)

def answered (e : Option ℕ) (s : Monitor) : Monitor := { s with answers := s.answers ++ [e] }

/-- A call that may fail. -/
def attempt {α : Type} (K : Kernel) (f : Monitor → α × Monitor) (s : Monitor) :
    Except ℕ α × Monitor :=
  match K.errno s.answers.length with
  | some e => (.error e, s.answered (some e))
  | none => ((.ok (f (s.answered none)).1), (f (s.answered none)).2)

/-- The error of a load, whose result is negative then. -/
def loadError (result : ℤ) : Option ℕ := if result < 0 then some (-result).toNat else none

/-- A new descriptor. -/
def openFd (K : Kernel) (d : Descriptor) (s : Monitor) : ℕ × Monitor :=
  (K.alloc s.fds, { s with fds := s.fds.set (K.alloc s.fds) d })

end Monitor

open Monitor in
def monitorSys (K : Kernel) : Handler Request Request.Result Monitor
  | .ifNametoindex name, s => (K.ifNametoindex name, s)
  | .kwatchBpfOpen, s => attempt K (fun s => ((), { s with objects := s.objects + 1 })) s
  | .kwatchBpfLoad config, s =>
    let result := K.loadResult s.answers.length
    (result, { s.answered (loadError result) with config := config, maps := .empty })
  | .kwatchBpfDestroy, s => ((), { s with objects := s.objects - 1 })
  | .pin st, s =>
    ((faultyPin K.faults st s.files).1, { s with files := (faultyPin K.faults st s.files).2 })
  | .bpfProgramFd, s => attempt K (fun s => ((), s)) s
  | .bpfLinkCreate ifIndex flags, s => attempt K (openFd K (.link ifIndex flags)) s
  | .sigprocmask, s => attempt K (fun s => ((), s)) s
  | .signalfd, s => attempt K (openFd K .signalfd) s
  | .timerfdCreate, s => attempt K (openFd K (.timerfd 0)) s
  | .timerfdSettime fd intervalNs, s =>
    attempt K (fun s => ((), { s with fds := s.fds.set fd (.timerfd intervalNs) })) s
  | .ringBufferNew, s => attempt K (openFd K .ring) s
  | .epollCreate1, s => attempt K (openFd K (.epoll [])) s
  | .epollCtlAdd ep fd, s => ((), (attempt K (fun s => ((), s.register ep fd)) s).2)
  | .epollWait ep w, s =>
    (w.result.map fun fds => (s.receive w).ready ep fds, s.receive w)
  | .readSignal fd, s => s.readSignal fd
  | .readTimer _, s => ((), s)
  | .ringBufferConsume budget, s =>
    let x := RingBuf.consume K.consumer budget s.maps.events s.ring
    ((), { s with ring := x.1, maps := { s.maps with events := x.2 } })
  | .close fd, s => ((), { s with fds := s.fds.erase fd })

abbrev MonitorProg := Prog Request Request.Result

def request (c : Request) : MonitorProg c.Result := .step c

/-- The steps of the files, made by the process. -/
def pinRequests {α : Type} (p : PinProg α) : MonitorProg α := p.expand fun st => request (.pin st)

end KWatch
