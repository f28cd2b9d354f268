import KWatch.Library.Prog
import KWatch.Library.Table
import KWatch.Pin.OwnerState

/-! # The files of one interface

What lies under the pin directory in the BPF file system and under `/run/kwatch`, with the
process table, and the system calls on them. A call has the result that the files dictate.
-/

namespace KWatch

inductive Errno | EEXIST | ENOENT | ENOTEMPTY | other
  deriving DecidableEq, Repr

/-- A path that is free, not a directory, or a directory with contents. -/
inductive Node (E : Type)
  | absent
  | other
  | dir (contents : E)

/-- An entry of the pin directory: a map of a process, or something else. -/
inductive PinEntry
  | map (owner : OwnerState)
  | file
  | subdir
  deriving DecidableEq, Repr

inductive OwnerFile
  | absent
  | text (content : Text)
  | subdir
  deriving DecidableEq, Repr

structure OwnerDir where
  ownerPid : OwnerFile
  others : List Text
  deriving DecidableEq, Repr

structure Files where
  pinDir : Node (Table Text PinEntry)
  runDir : Node (Node OwnerDir)
  /-- The contents of `/proc/<pid>/stat`. -/
  procStat : ℤ → Option Text

namespace Files

/-- What a name in the pin directory stands for. -/
def pin (s : Files) (m : Text) : Option PinEntry :=
  match s.pinDir with
  | .dir t => t.get? m
  | _ => none

/-- Nothing lies below what is not a directory. -/
def ownerDir (s : Files) : Node OwnerDir :=
  match s.runDir with
  | .dir d => d
  | .other => .other
  | .absent => .absent

def ownerPid (s : Files) : OwnerFile :=
  match s.ownerDir with
  | .dir d => d.ownerPid
  | _ => .absent

/-- All of the maps are those of a process. -/
def Held (s : Files) (maps : List Text) (o : OwnerState) : Prop :=
  ∀ m ∈ maps, s.pin m = some (.map o)

/-- The maps are those of a process, and the owner file names it. -/
def OwnedBy (s : Files) (maps : List Text) (o : OwnerState) : Prop :=
  s.Held maps o ∧ s.ownerPid = .text (ownerLine o)

def setOwnerPid (s : Files) (d : OwnerDir) (f : OwnerFile) : Files :=
  { s with runDir := .dir (.dir { d with ownerPid := f }) }

end Files

/-- The directories that are created. -/
inductive DirPath | pinDir | runDir | ownerDir
  deriving DecidableEq, Repr

/-- The system calls. -/
inductive Sys
  | mkdir (d : DirPath)
  | stat (d : DirPath)
  | rmdirPin
  | rmdirOwner
  | readdirPin
  | unlinkPin (m : Text)
  /-- `BPF_OBJ_PIN` of the map with the name, of the object of a process. -/
  | objPin (self : OwnerState) (m : Text)
  | readOwnerPid
  | fopenOwnerPid
  | fprintfOwnerPid (line : Text)
  | fcloseOwnerPid (line : Text)
  | unlinkOwnerPid
  | readProcStat (pid : ℤ)

abbrev Sys.Result : Sys → Type
  | .mkdir _ | .rmdirPin | .rmdirOwner | .unlinkPin _ | .objPin _ _ | .fopenOwnerPid
  | .unlinkOwnerPid => Except Errno Unit
  | .stat _ | .fprintfOwnerPid _ | .fcloseOwnerPid _ => Bool
  | .readdirPin => Except Errno (List Text)
  | .readOwnerPid | .readProcStat _ => Option Text

namespace Files

/-! ### Directories -/

def mkdir (s : Files) : DirPath → Except Errno Unit × Files
  | .pinDir =>
    match s.pinDir with
    | .absent => (.ok (), { s with pinDir := .dir .empty })
    | _ => (.error .EEXIST, s)
  | .runDir =>
    match s.runDir with
    | .absent => (.ok (), { s with runDir := .dir .absent })
    | _ => (.error .EEXIST, s)
  | .ownerDir =>
    match s.runDir with
    | .absent => (.error .ENOENT, s)
    | .other => (.error .other, s)
    | .dir .absent => (.ok (), { s with runDir := .dir (.dir ⟨.absent, []⟩) })
    | .dir _ => (.error .EEXIST, s)

/-- `stat` and `S_ISDIR`. -/
def isDir (s : Files) : DirPath → Bool
  | .pinDir => match s.pinDir with | .dir _ => true | _ => false
  | .runDir => match s.runDir with | .dir _ => true | _ => false
  | .ownerDir => match s.ownerDir with | .dir _ => true | _ => false

def rmdirPin (s : Files) : Except Errno Unit × Files :=
  match s.pinDir with
  | .absent => (.error .ENOENT, s)
  | .other => (.error .other, s)
  | .dir t => if t.keys = [] then (.ok (), { s with pinDir := .absent }) else (.error .ENOTEMPTY, s)

def rmdirOwner (s : Files) : Except Errno Unit × Files :=
  match s.runDir with
  | .absent | .dir .absent => (.error .ENOENT, s)
  | .other | .dir .other => (.error .other, s)
  | .dir (.dir d) =>
    if d = ⟨.absent, []⟩ then (.ok (), { s with runDir := .dir .absent })
    else (.error .ENOTEMPTY, s)

def readdirPin (s : Files) : Except Errno (List Text) :=
  match s.pinDir with
  | .absent => .error .ENOENT
  | .other => .error .other
  | .dir t => .ok t.keys

/-! ### Files -/

def unlinkPin (s : Files) (m : Text) : Except Errno Unit × Files :=
  match s.pinDir with
  | .absent => (.error .ENOENT, s)
  | .other => (.error .other, s)
  | .dir t =>
    match t.get? m with
    | none => (.error .ENOENT, s)
    | some .subdir => (.error .other, s)
    | some _ => (.ok (), { s with pinDir := .dir (t.erase m) })

def objPin (s : Files) (self : OwnerState) (m : Text) : Except Errno Unit × Files :=
  match s.pinDir with
  | .absent => (.error .ENOENT, s)
  | .other => (.error .other, s)
  | .dir t =>
    if m ∈ t.keys then (.error .EEXIST, s)
    else (.ok (), { s with pinDir := .dir (t.set m (.map self)) })

/-- A directory opens for reading and has nothing to read. -/
def readOwnerPid (s : Files) : Option Text :=
  match s.ownerPid with
  | .absent => none
  | .text t => some t
  | .subdir => some []

/-- `fopen` for writing, which creates or truncates the file. -/
def fopenOwnerPid (s : Files) : Except Errno Unit × Files :=
  match s.ownerDir with
  | .absent => (.error .ENOENT, s)
  | .other => (.error .other, s)
  | .dir d =>
    match d.ownerPid with
    | .subdir => (.error .other, s)
    | _ => (.ok (), s.setOwnerPid d (.text []))

/-- The line that `fprintf` left in the buffer reaches the file when it is closed. -/
def fcloseOwnerPid (s : Files) (line : Text) : Files :=
  match s.ownerDir with
  | .dir d =>
    match d.ownerPid with
    | .text _ => s.setOwnerPid d (.text line)
    | _ => s
  | _ => s

def unlinkOwnerPid (s : Files) : Except Errno Unit × Files :=
  match s.ownerDir with
  | .absent => (.error .ENOENT, s)
  | .other => (.error .other, s)
  | .dir d =>
    match d.ownerPid with
    | .absent => (.error .ENOENT, s)
    | .text _ => (.ok (), s.setOwnerPid d .absent)
    | .subdir => (.error .other, s)

end Files

def sys : Handler Sys Sys.Result Files
  | .mkdir d, s => s.mkdir d
  | .stat d, s => (s.isDir d, s)
  | .rmdirPin, s => s.rmdirPin
  | .rmdirOwner, s => s.rmdirOwner
  | .readdirPin, s => (s.readdirPin, s)
  | .unlinkPin m, s => s.unlinkPin m
  | .objPin self m, s => s.objPin self m
  | .readOwnerPid, s => (s.readOwnerPid, s)
  | .fopenOwnerPid, s => s.fopenOwnerPid
  | .fprintfOwnerPid _, s => (true, s)
  | .fcloseOwnerPid line, s => (true, s.fcloseOwnerPid line)
  | .unlinkOwnerPid, s => s.unlinkOwnerPid
  | .readProcStat pid, s => (s.procStat pid, s)

end KWatch
