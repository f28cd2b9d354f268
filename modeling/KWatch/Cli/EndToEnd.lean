import KWatch.Cli.Blacklist
import KWatch.Xdp.Effects
import KWatch.Xdp.Transport

/-! # From commands to verdicts

The networks that were blocked and not unblocked since are a set that every accepted CIDR
changes, whatever becomes of the other arguments of its command. As long as the set fits the
map, the trie holds exactly this set and the packet program drops exactly the IPv4 frames whose
source lies in it.
-/

namespace KWatch

/-! ### The set of blocked networks -/

/-- The network an accepted CIDR denotes. -/
def acceptedNetwork (s : Text) : Option Block :=
  match Ipv4.parseCidr s with
  | .error _ => none
  | .ok r => some (cidrKey r).network

def Verb.onSet : Verb → Block → Finset Block → Finset Block
  | .block, n, b => insert n b
  | .unblock, n, b => b.erase n

/-- One CIDR argument under the verb of its command. -/
abbrev CidrOp := Verb × Text

def CidrOp.onSet (b : Finset Block) (op : CidrOp) : Finset Block :=
  match acceptedNetwork op.2 with
  | none => b
  | some n => op.1.onSet n b

/-- The networks blocked and not unblocked since. -/
def blockedAfter (ops : List CidrOp) : Finset Block := ops.foldl CidrOp.onSet ∅

/-- Whether a CIDR is accepted and its map operation succeeds; only a blocked network can be
removed. -/
def CidrOp.Succeeds (b : Finset Block) (op : CidrOp) : Prop :=
  ∃ n, acceptedNetwork op.2 = some n ∧ (op.1 = .unblock → n ∈ b)

theorem blockedAfter_append (ops : List CidrOp) (op : CidrOp) :
    blockedAfter (ops ++ [op]) = op.onSet (blockedAfter ops) := by
  simp [blockedAfter]

/-! ### Commands -/

structure Command where
  verb : Verb
  cidrs : List Text

namespace Command

def ops (c : Command) : List CidrOp := c.cidrs.map fun s => (c.verb, s)

/-- A command line on an interface. -/
def exec (host : Host) (ifName : Text) (c : Command) (t : LpmTrie) : ℕ × LpmTrie :=
  match c.verb with
  | .block => cmdBlock host (ifName :: c.cidrs) t
  | .unblock => cmdUnblock host (ifName :: c.cidrs) t

end Command

/-- The blacklist after commands on an interface, from an empty one. -/
def runCommands (host : Host) (ifName : Text) (cmds : List Command) : LpmTrie :=
  cmds.foldl (fun t c => (c.exec host ifName t).2) .empty

def opsOf (cmds : List Command) : List CidrOp := cmds.flatMap Command.ops

/-- The interface has a live owner and its pinned blacklist opens. -/
def LiveOwner (host : Host) (ifName : Text) : Prop := 0 ≤ getBlacklistFd host ifName

/-- At no moment of the history more networks are blocked than the map has room for. -/
def Fits (ops : List CidrOp) : Prop := ∀ past, past <+: ops → (blockedAfter past).card ≤ 1024

theorem Fits.of_append {ops more : List CidrOp} (h : Fits (ops ++ more)) : Fits ops :=
  fun past hp => h past (hp.trans (List.prefix_append _ _))

/-! ### The trie follows the set -/

/-- One argument changes the trie as it changes the set, and is reported when it does not. -/
theorem editOne_spec {v : Verb} {s : Text} {t : LpmTrie} {b : Finset Block} (ok : Bool)
    (ht : t.networks.toFinset = b) (hfit : (CidrOp.onSet b (v, s)).card ≤ 1024) :
    (editOne v (ok, t) s).2.networks.toFinset = CidrOp.onSet b (v, s) ∧
      ((editOne v (ok, t) s).1 = true ↔ ok = true ∧ CidrOp.Succeeds b (v, s)) := by
  have hmem : ∀ n, n ∈ t.networks ↔ n ∈ b := fun n => by rw [← ht, List.mem_toFinset]
  unfold editOne CidrOp.onSet CidrOp.Succeeds at *
  cases hp : Ipv4.parseCidr s with
  | error e => simp [acceptedNetwork, hp, ht]
  | ok r =>
    have hn : acceptedNetwork s = some (cidrKey r).network := by simp [acceptedNetwork, hp]
    simp only [hn, Option.some.injEq, exists_eq_left'] at hfit ⊢
    cases v with
    | block =>
      have hlen : (cidrKey r).prefixlen.toNat ≤ 32 := by
        rw [cidrKey, UInt8.toNat_toUInt32]
        exact Ipv4.parseCidr_prefixlen_le hp
      have hroom : (t.update (cidrKey r) 1).isSome := by
        rw [LpmTrie.update_isSome_iff hlen, hmem]
        by_cases hin : (cidrKey r).network ∈ b
        · exact Or.inl hin
        · right
          simp only [Verb.onSet, Finset.card_insert_of_notMem hin] at hfit
          rw [← List.toFinset_card_of_nodup t.networks_nodup, ht]
          exact hfit
      obtain ⟨u, hu⟩ := Option.isSome_iff_exists.mp hroom
      simp only [Verb.mapOp, hu, Verb.onSet]
      refine ⟨?_, by simp⟩
      ext n
      rw [List.mem_toFinset, LpmTrie.mem_networks_update hu, Finset.mem_insert, hmem]
    | unblock =>
      cases hu : t.delete (cidrKey r) with
      | none =>
        have hout : (cidrKey r).network ∉ b := by
          rw [← hmem, ← LpmTrie.delete_isSome_iff, hu]
          simp
        simp only [Verb.mapOp, hu, Verb.onSet, Finset.erase_eq_of_notMem hout]
        exact ⟨ht, by simp [hout]⟩
      | some u =>
        have hin : (cidrKey r).network ∈ b := by
          rw [← hmem, ← LpmTrie.delete_isSome_iff, hu]
          rfl
        simp only [Verb.mapOp, hu, Verb.onSet]
        refine ⟨?_, by simp [hin]⟩
        ext n
        rw [List.mem_toFinset, LpmTrie.mem_networks_delete hu, Finset.mem_erase, hmem]

/-- The loop over the arguments of a command. -/
theorem editAll_spec (v : Verb) {ops : List CidrOp} {t : LpmTrie}
    (ht : t.networks.toFinset = blockedAfter ops) (cidrs : List Text)
    (hfit : Fits (ops ++ cidrs.map fun s => (v, s))) :
    (cidrs.foldl (editOne v) (true, t)).2.networks.toFinset =
        blockedAfter (ops ++ cidrs.map fun s => (v, s)) ∧
      ((cidrs.foldl (editOne v) (true, t)).1 = true ↔ ∀ past s rest, cidrs = past ++ s :: rest →
        CidrOp.Succeeds (blockedAfter (ops ++ past.map fun s => (v, s))) (v, s)) := by
  induction cidrs using List.reverseRecOn with
  | nil => exact ⟨by simpa using ht, by simp⟩
  | append_singleton cidrs s ih =>
    rw [List.map_append, List.map_singleton, ← List.append_assoc] at hfit ⊢
    obtain ⟨hset, hok⟩ := ih hfit.of_append
    have hcard := hfit _ List.prefix_rfl
    rw [blockedAfter_append] at hcard ⊢
    rw [List.foldl_append, List.foldl_cons, List.foldl_nil]
    obtain ⟨hset', hok'⟩ := editOne_spec (cidrs.foldl (editOne v) (true, t)).1 hset hcard
    refine ⟨hset', hok'.trans ?_⟩
    rw [hok]
    constructor
    · rintro ⟨hpast, hlast⟩ past s' rest he
      rcases List.eq_nil_or_concat rest with rfl | ⟨rest', s'', rfl⟩
      · obtain ⟨rfl, hs⟩ := List.append_inj' he rfl
        obtain rfl : s = s' := List.singleton_inj.mp hs
        exact hlast
      · rw [List.concat_eq_append, ← List.cons_append, ← List.append_assoc] at he
        obtain ⟨he, -⟩ := List.append_inj' he rfl
        exact hpast past s' rest' he
    · intro h
      refine ⟨fun past s' rest he => h past s' (rest ++ [s]) ?_, h cidrs s [] rfl⟩
      rw [he, List.append_assoc, List.cons_append]

section Runs

variable {host : Host} {ifName : Text}

theorem exec_eq (hlive : LiveOwner host ifName) (c : Command) (t : LpmTrie) :
    c.exec host ifName t = if c.cidrs = [] then (64, t) else
      (if (c.cidrs.foldl (editOne c.verb) (true, t)).1 then 0 else 65,
        (c.cidrs.foldl (editOne c.verb) (true, t)).2) := by
  have hfd : ¬ getBlacklistFd host ifName < 0 := not_lt.mpr hlive
  obtain ⟨v, cidrs⟩ := c
  cases v <;> cases cidrs <;>
    simp [Command.exec, cmdBlock, cmdUnblock, editBlacklist, hfd]

/-- The trie holds the blocked networks after any commands. -/
theorem runCommands_networks (hlive : LiveOwner host ifName) (cmds : List Command)
    (hfit : Fits (opsOf cmds)) :
    (runCommands host ifName cmds).networks.toFinset = blockedAfter (opsOf cmds) := by
  induction cmds using List.reverseRecOn with
  | nil => rfl
  | append_singleton cmds c ih =>
    have hops : opsOf (cmds ++ [c]) = opsOf cmds ++ c.cidrs.map fun s => (c.verb, s) := by
      simp [opsOf, Command.ops]
    rw [hops] at hfit ⊢
    have hnet := (editAll_spec c.verb (ih hfit.of_append) c.cidrs hfit).1
    rw [← hnet, runCommands, List.foldl_append, List.foldl_cons, List.foldl_nil, ← runCommands,
      exec_eq hlive]
    split
    · next h => rw [h]; rfl
    · rfl

end Runs

/-- What the packet program answers to a frame under a blacklist. -/
theorem verdict_iff (cfg : KwatchRuntimeConfig) (h : Helpers) (f : Frame) (m : Maps) :
    ∃ r, xdpKwatchProg cfg h f m = some r ∧ (r.1 = .XDP_DROP ↔
      ∃ F : Ipv4Frame, F.encode = f ∧ ∃ n ∈ m.blacklist.networks, InNetwork F.ip.saddr n) := by
  refine ⟨_, xdpKwatchProg_eq cfg h f m, ?_⟩
  rw [runView_drop_iff]
  constructor
  · rintro ⟨ip, hv, hb⟩
    obtain ⟨F, hF, rfl⟩ := frameView_eq_ipv4_iff.mp hv
    exact ⟨F, hF, (LpmTrie.lookup_host_isSome_iff _ _).mp hb⟩
  · rintro ⟨F, rfl, hb⟩
    exact ⟨F.view, frameView_encode F, (LpmTrie.lookup_host_isSome_iff _ _).mpr hb⟩

/-- A frame that is a complete IPv4 frame from a source in one of the networks. -/
def FromBlocked (b : Finset Block) (f : Frame) : Prop :=
  ∃ F : Ipv4Frame, F.encode = f ∧ ∃ n ∈ b, InNetwork F.ip.saddr n

/-- The exit code of a command after a history of accepted and rejected arguments. -/
structure ExitSpec (ops : List CidrOp) (c : Command) (code : ℕ) : Prop where
  usage : c.cidrs = [] → code = 64
  ran : c.cidrs ≠ [] → code = 0 ∨ code = 65
  success_iff : c.cidrs ≠ [] → (code = 0 ↔ ∀ front s rest, c.cidrs = front ++ s :: rest →
    CidrOp.Succeeds (blockedAfter (ops ++ front.map fun s => (c.verb, s))) (c.verb, s))

/-- Any commands on an interface with a live owner, and the verdict on any frame after them. -/
theorem blacklist_end_to_end {host : Host} {ifName : Text} (hlive : LiveOwner host ifName)
    (cmds : List Command) (hfit : Fits (opsOf cmds)) :
    (∀ cfg h f m, m.blacklist = runCommands host ifName cmds →
      ∃ r, xdpKwatchProg cfg h f m = some r ∧
        (r.1 = .XDP_DROP ↔ FromBlocked (blockedAfter (opsOf cmds)) f) ∧
        (r.1 = .XDP_PASS ↔ ¬ FromBlocked (blockedAfter (opsOf cmds)) f)) ∧
    ∀ past c, past ++ [c] <+: cmds →
      ExitSpec (opsOf past) c (c.exec host ifName (runCommands host ifName past)).1 := by
  constructor
  · intro cfg h f m hm
    obtain ⟨r, hr, hdrop⟩ := verdict_iff cfg h f m
    have hiff : r.1 = .XDP_DROP ↔ FromBlocked (blockedAfter (opsOf cmds)) f := by
      rw [hdrop, hm, FromBlocked, ← runCommands_networks hlive cmds hfit]
      simp only [List.mem_toFinset]
    refine ⟨r, hr, hiff, ?_⟩
    rw [← hiff]
    cases r.1 <;> simp
  · intro past c hpre
    obtain ⟨later, rfl⟩ := hpre
    have hops : opsOf (past ++ [c] ++ later) =
        opsOf past ++ (c.cidrs.map fun s => (c.verb, s)) ++ opsOf later := by
      simp [opsOf, Command.ops]
    rw [hops] at hfit
    have hnet := runCommands_networks hlive past hfit.of_append.of_append
    have hall := (editAll_spec c.verb hnet c.cidrs hfit.of_append).2
    rw [exec_eq hlive]
    constructor
    · intro hnil
      rw [if_pos hnil]
    · intro hne
      rw [if_neg hne]
      dsimp only
      split <;> simp
    · intro hne
      rw [if_neg hne, ← hall]
      dsimp only
      split <;> simp_all

theorem card_blockedAfter_le (ops : List CidrOp) : (blockedAfter ops).card ≤ ops.length := by
  induction ops using List.reverseRecOn with
  | nil => simp [blockedAfter]
  | append_singleton ops op ih =>
    rw [blockedAfter_append, List.length_append, List.length_singleton, CidrOp.onSet]
    split
    · omega
    · next n hn =>
      cases op.1 with
      | block => exact (Finset.card_insert_le _ _).trans (by omega)
      | unblock => exact Finset.card_erase_le.trans (by omega)

/-- A history with at most 1024 arguments fits. -/
theorem fits_of_length_le {ops : List CidrOp} (h : ops.length ≤ 1024) : Fits ops :=
  fun past hp => (card_blockedAfter_le past).trans (hp.length_le.trans h)

/-- A host on which every interface has a live owner. -/
def liveHost : Host := ⟨fun _ => .ok ⟨1, 1⟩, fun _ => true, fun _ => 3⟩

/-- A network is blocked with an argument that is rejected after it, and unblocked again. -/
def blockThenUnblock : List Command :=
  [⟨.block, ["10.1.2.3/8".toList, "10/8".toList]⟩, ⟨.unblock, ["10.0.0.0/8".toList]⟩]

/-- The maps of the packet program after some commands. -/
def mapsAfter (cmds : List Command) : Maps :=
  { Maps.empty with blacklist := runCommands liveHost "lo".toList cmds }

theorem blacklist_mapsAfter (cmds : List Command) :
    (mapsAfter cmds).blacklist = runCommands liveHost "lo".toList cmds := rfl

/-- A packet from the network is dropped while it is blocked, and passed after that. -/
theorem blacklist_end_to_end_lo :
    (∃ r, xdpKwatchProg ⟨100, 10⟩ ⟨1, 1, 0, false, []⟩ lateSyn.encode
        (mapsAfter (blockThenUnblock.take 1)) = some r ∧ r.1 = .XDP_DROP) ∧
      ∃ r, xdpKwatchProg ⟨100, 10⟩ ⟨1, 1, 0, false, []⟩ lateSyn.encode
        (mapsAfter blockThenUnblock) = some r ∧ r.1 = .XDP_PASS := by
  have hlive : LiveOwner liveHost "lo".toList := by simp [LiveOwner, getBlacklistFd, liveHost]
  constructor
  · obtain ⟨r, hr, hdrop, -⟩ := (blacklist_end_to_end hlive (blockThenUnblock.take 1)
      (fits_of_length_le (by decide))).1 ⟨100, 10⟩ ⟨1, 1, 0, false, []⟩ lateSyn.encode _
        (blacklist_mapsAfter _)
    refine ⟨r, hr, hdrop.mpr ⟨lateSyn, rfl, ?_⟩⟩
    decide +kernel
  · obtain ⟨r, hr, -, hpass⟩ := (blacklist_end_to_end hlive blockThenUnblock
      (fits_of_length_le (by decide))).1 ⟨100, 10⟩ ⟨1, 1, 0, false, []⟩ lateSyn.encode _
        (blacklist_mapsAfter _)
    refine ⟨r, hr, hpass.mpr ?_⟩
    have hnone : blockedAfter (opsOf blockThenUnblock) = ∅ := by decide +kernel
    rintro ⟨F, -, n, hn, -⟩
    rw [hnone] at hn
    cases hn

/-- A command without arguments fails although none of its arguments does. -/
theorem no_arguments_fail : LiveOwner liveHost "lo".toList ∧
    (Command.exec liveHost "lo".toList ⟨.block, []⟩ .empty).1 = 64 ∧
    ∀ front s rest, ([] : List Text) = front ++ s :: rest →
      CidrOp.Succeeds (blockedAfter (front.map fun s => (.block, s))) (.block, s) := by
  refine ⟨by simp [LiveOwner, getBlacklistFd, liveHost], rfl, fun front s rest h => ?_⟩
  cases front <;> cases h

end KWatch
