import KWatch.Util.Numbers

/-! # The identity of an owner

The texts of `src/bpf/pin_state.cpp`: the line of the owner file, written with `%d %llu` and read
back with `%ld %llu`, and the line of `/proc/<pid>/stat`, of which the process state and the start
time are read.
-/

namespace KWatch

open Ipv4

structure OwnerState where
  pid : ℤ
  startTimeTicks : UInt64
  deriving DecidableEq, Repr

def pinPathForIface (ifName : Text) : Text := "/sys/fs/bpf/kwatch_".toList ++ ifName

def ownerStateDirForIface (ifName : Text) : Text := "/run/kwatch/".toList ++ ifName

def ownerPidPathForIface (ifName : Text) : Text :=
  ownerStateDirForIface ifName ++ "/owner.pid".toList

/-! ### The owner file -/

/-- What `write_owner_pid_file` prints. -/
def ownerLine (owner : OwnerState) : Text :=
  printInt owner.pid ++ ' ' :: Nat.toDigits 10 owner.startTimeTicks.toNat ++ ['\n']

def parseOwnerState (content : Text) : Except String OwnerState :=
  match scanNumber content with
  | none => .error "owner file invalid"
  | some (neg, n, rest) =>
    match scanNumber rest with
    | none => .error "owner file invalid"
    | some (neg', n', _) =>
      if longValue neg n ≤ 0 ∨ 2147483647 < longValue neg n ∨ ullValue neg' n' = 0 then
        .error "owner file invalid"
      else .ok ⟨longValue neg n, ullValue neg' n'⟩

/-! ### Reading back -/

/-- Reading back what was written fails only for an identity that no process has. -/
theorem parseOwnerState_ownerLine (o : OwnerState) : parseOwnerState (ownerLine o) =
    if 0 < o.pid ∧ o.pid ≤ 2147483647 ∧ o.startTimeTicks ≠ 0 then .ok o
    else .error "owner file invalid" := by
  have hline : ownerLine o =
      printInt o.pid ++ (' ' :: (Nat.toDigits 10 o.startTimeTicks.toNat ++ ['\n'])) := by
    simp [ownerLine]
  have hscan := scanNumber_printInt o.pid
    (' ' :: (Nat.toDigits 10 o.startTimeTicks.toNat ++ ['\n'])) (by simp [isDigit])
  have hscan' := scanNumber_toDigits o.startTimeTicks.toNat ['\n'] (by simp [isDigit])
  have hull : ullValue false o.startTimeTicks.toNat = o.startTimeTicks := by
    have := o.startTimeTicks.toNat_lt
    rw [ullValue, if_neg (by omega)]
    simp
  simp only [parseOwnerState, hline, hscan, scanNumber_space, hscan', hull]
  rcases lt_or_ge o.pid 0 with hneg | hpos
  · rw [if_pos (.inl (by simp [longValue, hneg])), if_neg (by omega)]
  · have hlong : longValue (decide (o.pid < 0)) o.pid.natAbs =
        min 9223372036854775807 o.pid := by
      rw [longValue, decide_eq_false (by omega), if_neg (by decide), Int.natAbs_of_nonneg hpos]
    by_cases hbig : 2147483647 < o.pid
    · rw [if_pos (.inr (.inl (by rw [hlong]; omega))), if_neg (by omega)]
    · rw [hlong.trans (min_eq_right (by omega))]
      by_cases hok : 0 < o.pid ∧ o.startTimeTicks ≠ 0
      · rw [if_neg ?_, if_pos ⟨hok.1, by omega, hok.2⟩]
        rintro (h | h | h)
        · omega
        · omega
        · exact hok.2 h
      · rw [if_pos ?_, if_neg fun h => hok ⟨h.1, h.2.2⟩]
        rcases not_and_or.mp hok with h | h
        · exact .inl (by omega)
        · exact .inr (.inr (not_not.mp h))

/-! ### The process table -/

structure ProcStat where
  state : Char
  startTimeTicks : UInt64
  deriving DecidableEq, Repr

/-- What follows the last `") "`. -/
def afterCloseParen : Text → Option Text
  | [] => none
  | c :: t =>
    match afterCloseParen t with
    | some rest => some rest
    | none => if c = ')' ∧ t.head? = some ' ' then some t.tail else none

/-- The tokens `operator>>` reads one after another. -/
def tokens (s : Text) : List Text := (s.splitOnP isSpace).filter (· ≠ [])

/-- The loop over the fields, with the number of the next one. -/
def scanFields : ℕ → Char → List Text → Except String ProcStat
  | _, _, [] => .error "proc start time missing"
  | field, state, token :: rest =>
    if field = 3 then scanFields (field + 1) (token.headD '\x00') rest
    else if field = 22 then
      match stoull token with
      | none => .error "proc start time invalid"
      | some (ticks, pos) =>
        if pos ≠ token.length then .error "proc start time invalid" else .ok ⟨state, ticks⟩
    else scanFields (field + 1) state rest

def parseProcStat (content : Text) : Except String ProcStat :=
  match afterCloseParen (content.takeWhile (· != '\n')) with
  | none => .error "proc stat invalid"
  | some fields => scanFields 3 '\x00' (tokens fields)

end KWatch
