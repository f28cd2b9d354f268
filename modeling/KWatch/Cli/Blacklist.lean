import KWatch.Maps.Blacklist
import KWatch.Pin.OwnerState

/-! # The block and unblock commands

Both commands open the pinned blacklist of a live owner and apply one map operation to each CIDR
argument in turn. A CIDR that is malformed, or whose operation fails, is reported and skipped.
-/

namespace KWatch

/-- What the commands ask the host: the owner file, the processes and the pinned maps. -/
structure Host where
  readOwnerState : Text → Except String OwnerState
  isOwnerAlive : OwnerState → Bool
  bpfObjGet : Text → ℤ

def getBlacklistFd (host : Host) (ifName : Text) : ℤ :=
  match host.readOwnerState (ownerPidPathForIface ifName) with
  | .error _ => -1
  | .ok owner =>
    if host.isOwnerAlive owner then
      host.bpfObjGet (pinPathForIface ifName ++ "/blacklist".toList)
    else -1

/-- The two commands on the blacklist. -/
inductive Verb | block | unblock
  deriving DecidableEq, Repr

/-- The map operation of a command. -/
def Verb.mapOp : Verb → LpmTrie → LpmKey → Option LpmTrie
  | .block, t, k => t.update k 1
  | .unblock, t, k => t.delete k

/-- The key of an accepted CIDR. -/
def cidrKey (r : UInt32 × UInt8) : LpmKey := ⟨r.2.toUInt32, r.1⟩

/-- One turn of the loop over the arguments. -/
def editOne (v : Verb) (s : Bool × LpmTrie) (arg : Text) : Bool × LpmTrie :=
  match Ipv4.parseCidr arg with
  | .error _ => (false, s.2)
  | .ok r =>
    match v.mapOp s.2 (cidrKey r) with
    | none => (false, s.2)
    | some t => (s.1, t)

/-- The common body of the two commands: the exit code and the map. -/
def editBlacklist (v : Verb) (host : Host) (args : List Text) (t : LpmTrie) : ℕ × LpmTrie :=
  match args with
  | ifName :: arg :: rest =>
    if getBlacklistFd host ifName < 0 then (65, t)
    else
      let r := (arg :: rest).foldl (editOne v) (true, t)
      (if r.1 then 0 else 65, r.2)
  | _ => (64, t)

def cmdBlock : Host → List Text → LpmTrie → ℕ × LpmTrie := editBlacklist .block

def cmdUnblock : Host → List Text → LpmTrie → ℕ × LpmTrie := editBlacklist .unblock

end KWatch
