import KWatch.Cli.Blacklist
import KWatch.Core.EventFormatter
import KWatch.Library.Buckets

/-! # The list and stats commands

Both commands scan a pinned map of a live owner with `bpf_map_get_next_key` and print a line for
each entry they find. Without a live owner they do nothing, and neither do the block and unblock
commands.
-/

namespace KWatch

/-- What a command sees of a map that it has opened, while nothing changes it. -/
structure OpenMap (K V : Type) where
  getNextKey : Option K → Option K
  lookupElem : K → Option V
  maxEntries : ℕ

/-- The entries that follow a key, at most so many. -/
def OpenMap.scanFrom {K V : Type} (m : OpenMap K V) : ℕ → Option K → List (K × V)
  | 0, _ => []
  | n + 1, cursor =>
    match m.getNextKey cursor with
    | none => []
    | some key => ((m.lookupElem key).map (key, ·)).toList ++ m.scanFrom n (some key)

/-- A loop over a map that does not change; it visits no key twice. -/
def OpenMap.scan {K V : Type} (m : OpenMap K V) (cursor : Option K) : List (K × V) :=
  m.scanFrom m.maxEntries cursor

/-! ### A whole scan -/

namespace OpenMap

variable {K V : Type} {m : OpenMap K V} {entries : List (K × V)}

/-- A map with the given entries, which it hands out in their order. -/
structure Walks (m : OpenMap K V) (entries : List (K × V)) : Prop where
  first : m.getNextKey none = entries.head?.map Prod.fst
  next : ∀ p e s, entries = p ++ e :: s → m.getNextKey (some e.1) = s.head?.map Prod.fst
  value : ∀ e ∈ entries, m.lookupElem e.1 = some e.2
  room : entries.length ≤ m.maxEntries

/-- A scan that is about to enter a part of the entries reads all of it, and then ends. -/
theorem Walks.scanFrom (h : m.Walks entries) {p s : List (K × V)} (he : entries = p ++ s)
    {cursor : Option K} (hc : m.getNextKey cursor = s.head?.map Prod.fst) {n : ℕ}
    (hn : s.length ≤ n) : m.scanFrom n cursor = s := by
  induction s generalizing p cursor n with
  | nil =>
    cases n with
    | zero => rfl
    | succ n => simp [OpenMap.scanFrom, hc]
  | cons e s ih =>
    cases n with
    | zero => simp at hn
    | succ n =>
      have hlen : s.length ≤ n := by simpa using hn
      have he' : entries = (p ++ [e]) ++ s := by simp [he]
      have hrest := ih he' (h.next p e s he) hlen
      have hval := h.value e (by simp [he])
      simp [OpenMap.scanFrom, hc, hval, hrest]

theorem Walks.scan_none (h : m.Walks entries) : m.scan none = entries :=
  h.scanFrom (p := []) rfl h.first h.room

variable [DecidableEq K]

/-- A hash table with its keys in any order. -/
def ofTable (maxEntries : ℕ) (t : Table K V) : OpenMap K V :=
  ⟨Buckets.nextKey t.keys, t.get?, maxEntries⟩

theorem walks_ofTable {maxEntries : ℕ} {t : Table K V} (h : t.size ≤ maxEntries) :
    (ofTable maxEntries t).Walks t.entries := by
  constructor
  · exact List.head?_map
  · intro p e s he
    have hn := t.keys_nodup
    change Buckets.nextKey t.keys (some e.1) = _
    rw [Table.keys, he] at hn ⊢
    exact Buckets.nextKey_map_fst hn
  · intro e he
    exact Table.get?_eq_some_iff.mpr he
  · exact h

end OpenMap

/-! ### The commands -/

def listLine (e : LpmKey × UInt8) : Text :=
  Ipv4.format e.1.data ++ '/' :: decimal e.1.prefixlen.toNat ++ ['\n']

/-- The exit code and the lines on the standard output. -/
def cmdList (host : Host) (args : List Text) (blacklist : OpenMap LpmKey UInt8) : ℕ × List Text :=
  match args with
  | [ifName] =>
    if getBlacklistFd host ifName < 0 then (65, [])
    else (0, (blacklist.scan none).map listLine)
  | _ => (64, [])

def statsProtoName (key : UInt32) : Text :=
  if key = 1 then "ICMP".toList
  else if key = 6 then "TCP".toList
  else if key = 17 then "UDP".toList
  else if key = 0xFFFF then "DROPPED".toList
  else "Other (".toList ++ decimal key.toNat ++ [')']

def statsLine (e : UInt32 × UInt64) : Text :=
  statsProtoName e.1 ++ "\t\t".toList ++ decimal e.2.toNat ++ ['\n']

def statsHeading : Text := "Protocol\tCount\n---------------------------------\n".toList

/-- The scan starts from the key 0, and not from no key. -/
def cmdStats (host : Host) (args : List Text) (pktCounts : OpenMap UInt32 UInt64) :
    ℕ × List Text :=
  match args with
  | [ifName] =>
    match host.readOwnerState (ownerPidPathForIface ifName) with
    | .error _ => (65, [])
    | .ok owner =>
      if host.isOwnerAlive owner then
        if host.bpfObjGet (pinPathForIface ifName ++ "/pkt_counts".toList) < 0 then (65, [])
        else (0, statsHeading :: (pktCounts.scan (some 0)).map statsLine)
      else (65, [])
  | _ => (64, [])

/-! ### Without an owner -/

/-- The owner file of the interface names no process. -/
def Host.NoOwner (host : Host) (ifName : Text) : Prop :=
  ∃ e, host.readOwnerState (ownerPidPathForIface ifName) = .error e

variable {host : Host} {ifName : Text}

theorem getBlacklistFd_of_noOwner (h : host.NoOwner ifName) : getBlacklistFd host ifName = -1 := by
  obtain ⟨e, he⟩ := h
  simp [getBlacklistFd, he]

theorem editBlacklist_of_noOwner (h : host.NoOwner ifName) (v : Verb) (arg : Text)
    (rest : List Text) (t : LpmTrie) :
    editBlacklist v host (ifName :: arg :: rest) t = (65, t) := by
  simp [editBlacklist, getBlacklistFd_of_noOwner h]

theorem cmdList_of_noOwner (h : host.NoOwner ifName) (m : OpenMap LpmKey UInt8) :
    cmdList host [ifName] m = (65, []) := by
  simp [cmdList, getBlacklistFd_of_noOwner h]

theorem cmdStats_of_noOwner (h : host.NoOwner ifName) (m : OpenMap UInt32 UInt64) :
    cmdStats host [ifName] m = (65, []) := by
  obtain ⟨e, he⟩ := h
  simp [cmdStats, he]

end KWatch
