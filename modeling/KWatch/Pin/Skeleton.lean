import KWatch.Pin.Files

/-! # Pinning and unpinning the maps

`Skeleton::pin` and `Skeleton::unpin` of `src/bpf/skeleton.cpp` as sequences of steps on the files
of one interface, and the system calls of each step, with the loops of `bpf_object__pin_maps` and
`bpf_object__unpin_maps`. The maps are listed in the order in which libbpf visits them.
-/

namespace KWatch

abbrev SysProg := Prog Sys Sys.Result

def call (c : Sys) : SysProg c.Result := .step c

/-! ### The owner -/

def readProcStat (pid : ℤ) : SysProg (Except String ProcStat) := do
  if pid ≤ 0 then return .error "invalid pid"
  else match ← call (.readProcStat pid) with
    | none => return .error "proc stat missing"
    | some content => return parseProcStat content

/-- The owner state of the process with a pid. -/
def currentOwnerState (pid : ℤ) : SysProg (Except String OwnerState) := do
  match ← readProcStat pid with
  | .error e => return .error e
  | .ok stat => return .ok ⟨pid, stat.startTimeTicks⟩

def readOwnerState : SysProg (Except String OwnerState) := do
  match ← call .readOwnerPid with
  | none => return .error "owner file missing"
  | some content => return parseOwnerState content

def isOwnerAlive (owner : OwnerState) : SysProg Bool := do
  match ← readProcStat owner.pid with
  | .error _ => return false
  | .ok stat => return stat.state ≠ 'Z' ∧ stat.startTimeTicks = owner.startTimeTicks

def ensureDir (d : DirPath) : SysProg (Except String Unit) := do
  match ← call (.mkdir d) with
  | .ok () => return .ok ()
  | .error e =>
    if e ≠ .EEXIST then return .error "mkdir failed"
    else if ← call (.stat d) then return .ok ()
    else return .error "path is not a directory"

def ensureOwnerPidParent : SysProg (Except String Unit) := do
  match ← ensureDir .runDir with
  | .error e => return .error e
  | .ok () => ensureDir .ownerDir

def writeOwnerLine (owner : OwnerState) : SysProg (Except String Unit) := do
  match ← call .fopenOwnerPid with
  | .error _ => return .error "owner file open failed"
  | .ok () =>
    if ← call (.fprintfOwnerPid (ownerLine owner)) then
      if ← call (.fcloseOwnerPid (ownerLine owner)) then return .ok ()
      else
        let _ ← call .unlinkOwnerPid
        return .error "owner file close failed"
    else
      let _ ← call .unlinkOwnerPid
      return .error "owner file write failed"

def writeOwnerPidFile (pid : ℤ) : SysProg (Except String Unit) := do
  match ← currentOwnerState pid with
  | .error e => return .error e
  | .ok owner => writeOwnerLine owner

/-! ### The maps -/

def directoryIsEmpty : SysProg Bool := do
  match ← call .readdirPin with
  | .error _ => return true
  | .ok names => return names = []

def unpinMaps : List Text → SysProg (Except Errno Unit)
  | [] => return .ok ()
  | m :: ms => do
    match ← call (.unlinkPin m) with
    | .error e => return .error e
    | .ok () => unpinMaps ms

/-- `bpf_map__pin`, which makes the parent directory if it is missing. -/
def pinMap (self : OwnerState) (m : Text) : SysProg (Except Errno Unit) := do
  match ← call (.mkdir .pinDir) with
  | .error e => if e ≠ .EEXIST then return .error e else call (.objPin self m)
  | .ok () => call (.objPin self m)

/-- Unpin what a failed `bpf_object__pin_maps` had pinned, the last map first. -/
def unpinAll : List Text → SysProg Unit
  | [] => return ()
  | m :: ms => do
    let _ ← call (.unlinkPin m)
    unpinAll ms

/-- The loop of `bpf_object__pin_maps`, with the maps pinned so far, the last one first. -/
def pinMapsFrom (self : OwnerState) (pinned : List Text) :
    List Text → SysProg (Except Errno Unit)
  | [] => return .ok ()
  | m :: ms => do
    match ← pinMap self m with
    | .ok () => pinMapsFrom self (m :: pinned) ms
    | .error e =>
      unpinAll pinned
      return .error e

def pinMaps (self : OwnerState) (maps : List Text) : SysProg (Except Errno Unit) :=
  pinMapsFrom self [] maps

/-! ### The steps -/

/-- The steps on the files. -/
inductive PinStep
  | mkdirPin
  | statPin
  | readOwnerState
  | isOwnerAlive (owner : OwnerState)
  | directoryIsEmpty
  | unpinMaps (maps : List Text)
  | pinMaps (self : OwnerState) (maps : List Text)
  | unlinkOwnerPid
  | ensureOwnerPidParent
  | writeOwnerPidFile (pid : ℤ)
  | rmdirOwner
  | rmdirPin

abbrev PinStep.Result : PinStep → Type
  | .mkdirPin | .unpinMaps _ | .pinMaps _ _ | .unlinkOwnerPid | .rmdirOwner | .rmdirPin =>
    Except Errno Unit
  | .statPin | .isOwnerAlive _ | .directoryIsEmpty => Bool
  | .readOwnerState => Except String OwnerState
  | .ensureOwnerPidParent | .writeOwnerPidFile _ => Except String Unit

/-- The system calls of a step. -/
def PinStep.calls : (st : PinStep) → SysProg st.Result
  | .mkdirPin => call (.mkdir .pinDir)
  | .statPin => call (.stat .pinDir)
  | .readOwnerState => KWatch.readOwnerState
  | .isOwnerAlive owner => KWatch.isOwnerAlive owner
  | .directoryIsEmpty => KWatch.directoryIsEmpty
  | .unpinMaps maps => KWatch.unpinMaps maps
  | .pinMaps self maps => KWatch.pinMaps self maps
  | .unlinkOwnerPid => call .unlinkOwnerPid
  | .ensureOwnerPidParent => KWatch.ensureOwnerPidParent
  | .writeOwnerPidFile pid => KWatch.writeOwnerPidFile pid
  | .rmdirOwner => call .rmdirOwner
  | .rmdirPin => call .rmdirPin

abbrev PinProg := Prog PinStep PinStep.Result

def take (st : PinStep) : PinProg st.Result := .step st

/-- Each step at once. -/
def pinSys : Handler PinStep PinStep.Result Files := Prog.atomic sys PinStep.calls

namespace Skeleton

/-- Take a created pin directory back, unless something is in it. -/
def dropCreated (createdDir : Bool) : PinProg Unit := do
  if createdDir then
    if ← take .directoryIsEmpty then
      let _ ← take .rmdirPin

/-- The owner file, for maps that are pinned. -/
def recordOwner (self : OwnerState) (maps : List Text) (createdDir : Bool) :
    PinProg (Except String Unit) := do
  match ← take .ensureOwnerPidParent with
  | .error e =>
    let _ ← take (.unpinMaps maps)
    dropCreated createdDir
    return .error e
  | .ok () =>
    match ← take (.writeOwnerPidFile self.pid) with
    | .error e =>
      let _ ← take (.unpinMaps maps)
      dropCreated createdDir
      return .error e
    | .ok () => return .ok ()

/-- The maps, once nothing stands in their way. -/
def pinObject (self : OwnerState) (maps : List Text) (createdDir : Bool) :
    PinProg (Except String Unit) := do
  match ← take (.pinMaps self maps) with
  | .error _ =>
    dropCreated createdDir
    return .error "pin failed"
  | .ok () => recordOwner self maps createdDir

/-- The pin directory; whether this call created it. -/
def openDir : PinProg (Except String Bool) := do
  match ← take .mkdirPin with
  | .ok () => return .ok true
  | .error e =>
    if e ≠ .EEXIST then return .error "mkdir failed"
    else if ← take .statPin then return .ok false
    else return .error "pin path is not a directory"

/-- The check for an active owner, and the removal of what an earlier owner left. -/
def reclaim (maps : List Text) (createdDir : Bool) : PinProg (Except String Unit) := do
  match ← take .readOwnerState with
  | .ok owner =>
    if ← take (.isOwnerAlive owner) then
      if createdDir then
        let _ ← take .rmdirPin
      return .error "active owner exists"
    else
      let _ ← take (.unpinMaps maps)
      let _ ← take .unlinkOwnerPid
      return .ok ()
  | .error _ =>
    if ← take .directoryIsEmpty then return .ok ()
    else
      let _ ← take (.unpinMaps maps)
      return .ok ()

def pin (self : OwnerState) (maps : List Text) : PinProg (Except String Unit) := do
  match ← openDir with
  | .error e => return .error e
  | .ok createdDir =>
    match ← reclaim maps createdDir with
    | .error e => return .error e
    | .ok () => pinObject self maps createdDir

/-- The removal of the owner file and of the directories. -/
def dropOwner : PinProg Unit := do
  let _ ← take .unlinkOwnerPid
  let _ ← take .rmdirOwner
  let _ ← take .rmdirPin

/-- `Skeleton::unpin` of an object whose `pin` returned `Ok`. -/
def unpin (maps : List Text) : PinProg Unit := do
  let _ ← take (.unpinMaps maps)
  dropOwner

end Skeleton

end KWatch
