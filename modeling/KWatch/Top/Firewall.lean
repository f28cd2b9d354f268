import KWatch.Cli.RoundTrip
import KWatch.Tui.Input

/-! # The firewall rows of the dashboard

Every tick lists the blacklist and shows for each entry how long it has been there and how many
packets were dropped since. Both are measured from metadata that is kept under the entry from one
tick to the next and is never given up, so they are measured from the first tick that ever saw the
entry, also where it was gone in between.
-/

namespace KWatch.Top

structure FirewallMeta where
  firstSeenNs : UInt64 := 0
  dropBaseline : UInt64 := 0
  deriving DecidableEq, Repr

def firewallId (key : LpmKey) : UInt64 := key.prefixlen.toUInt64 <<< 32 ||| key.data.toUInt64

/-- The row of an entry with its metadata. -/
def firewallRow (nowNs droppedTotal : UInt64) (key : LpmKey) (m : FirewallMeta) : FirewallRow where
  prefixlen := key.prefixlen
  ip := key.data
  ageS := (nowNs - m.firstSeenNs) / 1000000000
  dropCount := if m.dropBaseline ≤ droppedTotal then droppedTotal - m.dropBaseline else 0

/-- The rows so far and the metadata of every entry that was ever listed. -/
structure FirewallState where
  rows : List FirewallRow
  metas : Table UInt64 FirewallMeta

/-- One turn of the loop. The table makes metadata for a key that it does not have. -/
def refreshEntry (nowNs droppedTotal : UInt64) (s : FirewallState) (key : LpmKey) :
    FirewallState :=
  let id := firewallId key
  let found := (s.metas.get? id).getD {}
  let m := if found.firstSeenNs = 0 then ⟨nowNs, droppedTotal⟩ else found
  ⟨s.rows ++ [firewallRow nowNs droppedTotal key m], s.metas.set id m⟩

/-- The loop over the blacklist, which has at most so many entries. -/
def firewallLoop (getNextKey : Option LpmKey → Option LpmKey) (nowNs droppedTotal : UInt64) :
    ℕ → Option LpmKey → FirewallState → FirewallState
  | 0, _, s => s
  | n + 1, lookupKey, s =>
    match getNextKey lookupKey with
    | none => s
    | some nextKey =>
      firewallLoop getNextKey nowNs droppedTotal n (some nextKey)
        (refreshEntry nowNs droppedTotal s nextKey)

def refreshFirewallSnapshot (getNextKey : Option LpmKey → Option LpmKey)
    (metas : Table UInt64 FirewallMeta) (nowNs droppedTotal : UInt64) : FirewallState :=
  firewallLoop getNextKey nowNs droppedTotal blacklistMaxEntries none ⟨[], metas⟩

/-- One call: the blacklist at the time, the order in which the kernel lists it, the clock and the
drop counter. -/
structure FirewallCall where
  getNextKey : Option LpmKey → Option LpmKey
  blacklist : LpmTrie
  order : List (LpmKey × UInt8)
  enumerates : Enumerates getNextKey blacklist order
  nowNs : UInt64
  droppedTotal : UInt64

/-- The entries that a call sees. -/
def FirewallCall.keys (c : FirewallCall) : List LpmKey := c.order.map Prod.fst

def FirewallCall.refresh (c : FirewallCall) (metas : Table UInt64 FirewallMeta) : FirewallState :=
  refreshFirewallSnapshot c.getNextKey metas c.nowNs c.droppedTotal

/-- The state after calls, whatever happens to the blacklist between them. -/
def refreshAll (calls : List FirewallCall) : FirewallState :=
  calls.foldl (fun s c => c.refresh s.metas) ⟨[], .empty⟩

/-! ### What the rows are meant to show -/

/-- The calls of the current stay of an entry: the last ones without a gap. -/
def currentStay (calls : List FirewallCall) (key : LpmKey) : List FirewallCall :=
  (calls.reverse.takeWhile fun c => key ∈ c.keys).reverse

/-- Age in seconds and drops since a call. -/
def rowSince (first last : FirewallCall) (key : LpmKey) : FirewallRow where
  prefixlen := key.prefixlen
  ip := key.data
  ageS := UInt64.ofNat ((last.nowNs.toNat - first.nowNs.toNat) / 1000000000)
  dropCount := UInt64.ofNat (last.droppedTotal.toNat - first.droppedTotal.toNat)

/-- Every row is measured from the start of the current stay of its entry, and metadata is kept for
the entries of the last call only. -/
structure MeasuredFromStay (calls : List FirewallCall) : Prop where
  rows : ∀ last ∈ calls.getLast?, (refreshAll calls).rows.map some =
    last.keys.map fun key => (currentStay calls key).head?.map fun first => rowSince first last key
  kept : ∀ last ∈ calls.getLast?, ∀ id ∈ (refreshAll calls).metas.keys,
    ∃ key ∈ last.keys, firewallId key = id

/-- Times and drop counters of a run: positive times, and neither ever goes back. -/
structure Clocked (calls : List FirewallCall) : Prop where
  pos : ∀ c ∈ calls, c.nowNs ≠ 0
  time : calls.Pairwise fun c c' => c.nowNs.toNat ≤ c'.nowNs.toNat
  drops : calls.Pairwise fun c c' => c.droppedTotal.toNat ≤ c'.droppedTotal.toNat

variable {c first last : FirewallCall} {calls : List FirewallCall} {key : LpmKey}
  {metas : Table UInt64 FirewallMeta} {now total : UInt64} {s : FirewallState}

/-! ### Keys -/

theorem toNat_firewallId (key : LpmKey) :
    (firewallId key).toNat = key.prefixlen.toNat * 2 ^ 32 + key.data.toNat := by
  have hp := key.prefixlen.toNat_lt
  have hd := key.data.toNat_lt
  have hshift : key.prefixlen.toNat <<< 32 % 2 ^ 64 = key.prefixlen.toNat <<< 32 := by
    rw [Nat.shiftLeft_eq]
    exact Nat.mod_eq_of_lt (by omega)
  rw [firewallId, UInt64.toNat_or, UInt64.toNat_shiftLeft, UInt32.toNat_toUInt64,
    UInt32.toNat_toUInt64]
  change key.prefixlen.toNat <<< 32 % 2 ^ 64 ||| key.data.toNat = _
  rw [hshift, ← Nat.shiftLeft_add_eq_or_of_lt hd, Nat.shiftLeft_eq]

theorem firewallId_injective : Function.Injective firewallId := by
  rintro ⟨p, d⟩ ⟨p', d'⟩ h
  have hid := congrArg UInt64.toNat h
  rw [toNat_firewallId, toNat_firewallId] at hid
  have hd := d.toNat_lt
  have hd' := d'.toNat_lt
  dsimp only at hid
  have hp : p = p' := UInt32.toNat_inj.mp (by omega)
  have hdata : d = d' := UInt32.toNat_inj.mp (by omega)
  rw [hp, hdata]

theorem FirewallCall.loop_eq (c : FirewallCall) {n : ℕ} {cursor : Option LpmKey}
    {before after : List (LpmKey × UInt8)} (horder : c.order = before ++ after)
    (hcursor : c.getNextKey cursor = after.head?.map Prod.fst) (hn : after.length ≤ n)
    (s : FirewallState) :
    firewallLoop c.getNextKey now total n cursor s =
      (after.map Prod.fst).foldl (refreshEntry now total) s := by
  induction after generalizing before cursor n s with
  | nil =>
    cases n with
    | zero => rfl
    | succ n =>
      rw [firewallLoop, hcursor]
      rfl
  | cons e after ih =>
    cases n with
    | zero => cases hn
    | succ n =>
      rw [firewallLoop, hcursor]
      have horder' : c.order = (before ++ [e]) ++ after := by
        rw [horder, List.append_assoc, List.singleton_append]
      exact ih horder' (c.enumerates.next before e after horder) (Nat.le_of_succ_le_succ hn) _

/-- A call lists the entries one after another. -/
theorem FirewallCall.refresh_eq (c : FirewallCall) (metas : Table UInt64 FirewallMeta) :
    c.refresh metas = c.keys.foldl (refreshEntry c.nowNs c.droppedTotal) ⟨[], metas⟩ := by
  have horder : c.order = [] ++ c.order := rfl
  apply c.loop_eq horder c.enumerates.first
  rw [c.enumerates.perm.length_eq, LpmTrie.length_stored]
  exact c.blacklist.bounded

/-! ### One call -/

/-- No metadata looks as if it had just been made. -/
def Seen (metas : Table UInt64 FirewallMeta) : Prop :=
  ∀ id m, metas.get? id = some m → m.firstSeenNs ≠ 0

/-- The metadata of an entry at a call. -/
def metaAt (metas : Table UInt64 FirewallMeta) (now total : UInt64) (key : LpmKey) :
    FirewallMeta :=
  (metas.get? (firewallId key)).getD ⟨now, total⟩

theorem refreshEntry_eq (hseen : Seen s.metas) (key : LpmKey) :
    refreshEntry now total s key =
      ⟨s.rows ++ [firewallRow now total key (metaAt s.metas now total key)],
        s.metas.set (firewallId key) (metaAt s.metas now total key)⟩ := by
  rw [refreshEntry, metaAt]
  cases h : s.metas.get? (firewallId key) with
  | none => rfl
  | some m =>
    dsimp only [Option.getD_some]
    rw [if_neg (hseen _ m h)]

theorem metaAt_ne_zero (hseen : Seen metas) (hnow : now ≠ 0) (key : LpmKey) :
    (metaAt metas now total key).firstSeenNs ≠ 0 := by
  rw [metaAt]
  cases h : metas.get? (firewallId key) with
  | none => exact hnow
  | some m => exact hseen _ m h

theorem seen_set (hseen : Seen metas) (hnow : now ≠ 0) (key : LpmKey) :
    Seen (metas.set (firewallId key) (metaAt metas now total key)) := by
  intro id m hm
  rw [Table.get?_set] at hm
  split at hm
  · cases hm
    exact metaAt_ne_zero hseen hnow key
  · exact hseen id m hm

/-- An entry that has been listed keeps its metadata. -/
theorem metaAt_set (metas : Table UInt64 FirewallMeta) (key key' : LpmKey) :
    metaAt (metas.set (firewallId key) (metaAt metas now total key)) now total key' =
      metaAt metas now total key' := by
  rw [metaAt, Table.get?_set]
  split
  · rename_i h
    rw [firewallId_injective h]
    rfl
  · rfl

/-- The rows and the metadata after entries were listed. -/
theorem foldl_refreshEntry (hnow : now ≠ 0) (keys : List LpmKey) (hseen : Seen s.metas) :
    (keys.foldl (refreshEntry now total) s).rows =
        s.rows ++ keys.map (fun key => firewallRow now total key (metaAt s.metas now total key)) ∧
      Seen (keys.foldl (refreshEntry now total) s).metas ∧
      ∀ id, (keys.foldl (refreshEntry now total) s).metas.get? id =
        (if ∃ key ∈ keys, firewallId key = id then
          some ((s.metas.get? id).getD ⟨now, total⟩) else s.metas.get? id) := by
  induction keys generalizing s with
  | nil => exact ⟨(List.append_nil _).symm, hseen, fun id => by simp⟩
  | cons key keys ih =>
    have hseen' : Seen (refreshEntry now total s key).metas := by
      rw [refreshEntry_eq hseen]
      exact seen_set hseen hnow key
    obtain ⟨hrows, hall, hget⟩ := ih hseen'
    rw [refreshEntry_eq hseen] at hrows hget
    rw [List.foldl_cons, refreshEntry_eq hseen]
    rw [refreshEntry_eq hseen] at hall
    refine ⟨?_, hall, ?_⟩
    · rw [hrows, List.append_assoc, List.map_cons, List.singleton_append]
      simp only [metaAt_set]
    · intro id
      rw [hget, Table.get?_set]
      by_cases hid : firewallId key = id
      · subst hid
        simp [metaAt]
      · have hne : id ≠ firewallId key := fun h => hid h.symm
        simp [hne, hid]

/-! ### Runs -/

/-- The first call that ever saw an entry. -/
def firstSeen (calls : List FirewallCall) (key : LpmKey) : Option FirewallCall :=
  calls.find? fun c => key ∈ c.keys

/-- Whatever happened in between, metadata is that of the first call that saw the entry. -/
structure FromFirstSeen (calls : List FirewallCall) (s : FirewallState) : Prop where
  seen : Seen s.metas
  get : ∀ key, s.metas.get? (firewallId key) =
    (firstSeen calls key).map fun c => ⟨c.nowNs, c.droppedTotal⟩
  keys : ∀ id ∈ s.metas.keys, ∃ c ∈ calls, ∃ key ∈ c.keys, firewallId key = id
  rows : ∀ last ∈ calls.getLast?, s.rows = last.keys.map fun key =>
    firewallRow last.nowNs last.droppedTotal key
      (((firstSeen calls key).map fun c => (⟨c.nowNs, c.droppedTotal⟩ : FirewallMeta)).getD {})

theorem refreshAll_append (calls : List FirewallCall) (c : FirewallCall) :
    refreshAll (calls ++ [c]) = c.refresh (refreshAll calls).metas := by
  rw [refreshAll, List.foldl_append]
  rfl

theorem firstSeen_append (calls : List FirewallCall) (c : FirewallCall) (key : LpmKey) :
    firstSeen (calls ++ [c]) key =
      (firstSeen calls key).or (if key ∈ c.keys then some c else none) := by
  rw [firstSeen, List.find?_append, firstSeen]
  by_cases h : key ∈ c.keys <;> simp [h]

theorem fromFirstSeen (calls : List FirewallCall) (hpos : ∀ c ∈ calls, c.nowNs ≠ 0) :
    FromFirstSeen calls (refreshAll calls) := by
  induction calls using List.reverseRecOn with
  | nil =>
    constructor
    · exact nofun
    · exact fun _ => rfl
    · exact nofun
    · exact nofun
  | append_singleton calls c ih =>
    have h := ih fun c' hc' => hpos c' (List.mem_append_left _ hc')
    have hnow : c.nowNs ≠ 0 := hpos c (by simp)
    obtain ⟨hrows, hseen, hget⟩ :=
      @foldl_refreshEntry c.nowNs c.droppedTotal ⟨[], (refreshAll calls).metas⟩ hnow c.keys h.seen
    rw [refreshAll_append, c.refresh_eq]
    constructor
    · exact hseen
    · intro key
      rw [hget, h.get, firstSeen_append]
      have hmem : (∃ key' ∈ c.keys, firewallId key' = firewallId key) ↔ key ∈ c.keys := by
        constructor
        · rintro ⟨key', hk, hid⟩
          rwa [← firewallId_injective hid]
        · exact fun hk => ⟨key, hk, rfl⟩
      by_cases hk : key ∈ c.keys
      · rw [if_pos (hmem.mpr hk), if_pos hk]
        cases firstSeen calls key <;> rfl
      · rw [if_neg fun h => hk (hmem.mp h), if_neg hk]
        cases firstSeen calls key <;> rfl
    · intro id hid
      rw [Table.mem_keys_iff_isSome, hget] at hid
      split at hid
      · rename_i hk
        obtain ⟨key, hk, hid'⟩ := hk
        exact ⟨c, by simp, key, hk, hid'⟩
      · obtain ⟨c', hc', hk⟩ := h.keys id (Table.mem_keys_iff_isSome.mpr hid)
        exact ⟨c', List.mem_append_left _ hc', hk⟩
    · rintro last hlast
      rw [List.getLast?_concat] at hlast
      cases hlast
      rw [hrows, List.nil_append]
      apply List.map_congr_left
      rintro key hk
      rw [firstSeen_append, if_pos hk, metaAt, h.get]
      cases firstSeen calls key <;> rfl

/-! ### Stays -/

theorem Clocked.of_prefix {past : List FirewallCall} (h : Clocked calls) (hp : past <+: calls) :
    Clocked past := by
  constructor
  · exact fun c hc => h.pos c (hp.subset hc)
  · exact h.time.sublist hp.sublist
  · exact h.drops.sublist hp.sublist

/-- What the code shows is what it should show when it is measured from the right call. -/
theorem firewallRow_eq_rowSince (htime : first.nowNs.toNat ≤ last.nowNs.toNat)
    (hdrops : first.droppedTotal.toNat ≤ last.droppedTotal.toNat) (key : LpmKey) :
    firewallRow last.nowNs last.droppedTotal key ⟨first.nowNs, first.droppedTotal⟩ =
      rowSince first last key := by
  have hage : (last.nowNs - first.nowNs) / 1000000000 =
      UInt64.ofNat ((last.nowNs.toNat - first.nowNs.toNat) / 1000000000) := by
    have hlt := last.nowNs.toNat_lt
    apply UInt64.toNat_inj.mp
    rw [UInt64.toNat_div, UInt64.toNat_sub_of_le _ _ (UInt64.le_iff_toNat_le.mpr htime),
      UInt64.toNat_ofNat', Nat.mod_eq_of_lt]
    · rfl
    · omega
  have hcount : last.droppedTotal - first.droppedTotal =
      UInt64.ofNat (last.droppedTotal.toNat - first.droppedTotal.toNat) := by
    have hlt := last.droppedTotal.toNat_lt
    apply UInt64.toNat_inj.mp
    rw [UInt64.toNat_sub_of_le _ _ (UInt64.le_iff_toNat_le.mpr hdrops), UInt64.toNat_ofNat',
      Nat.mod_eq_of_lt (by omega)]
  rw [firewallRow, rowSince, hage, if_pos (UInt64.le_iff_toNat_le.mpr hdrops), hcount]

/-- Where an entry never goes away again its stay starts with the first call that saw it. -/
theorem head?_currentStay (h : calls.Pairwise fun c c' => key ∈ c.keys → key ∈ c'.keys) :
    (currentStay calls key).head? = firstSeen calls key := by
  induction calls with
  | nil => rfl
  | cons c calls ih =>
    obtain ⟨hc, htail⟩ := List.pairwise_cons.mp h
    rw [firstSeen, currentStay, List.reverse_cons]
    by_cases hk : key ∈ c.keys
    · have hall : ∀ c' ∈ calls.reverse ++ [c], decide (key ∈ c'.keys) = true := by
        rintro c' hc'
        rw [decide_eq_true_iff]
        rcases List.mem_append.mp hc' with hc' | hc'
        · exact hc c' (List.mem_reverse.mp hc') hk
        · rwa [List.mem_singleton.mp hc']
      rw [List.takeWhile_eq_self_iff.mpr hall]
      simp [hk]
    · have hstop : (calls.reverse ++ [c]).takeWhile (fun c' => decide (key ∈ c'.keys)) =
          calls.reverse.takeWhile fun c' => decide (key ∈ c'.keys) := by
        rw [List.takeWhile_append]
        split
        · rename_i hall
          have hself : calls.reverse.takeWhile (fun c' => decide (key ∈ c'.keys)) =
              calls.reverse :=
            (List.takeWhile_prefix _).eq_of_length hall
          rw [hself]
          simp [hk]
        · rfl
      rw [hstop, List.find?_cons_of_neg (by simpa using hk)]
      exact ih htail

/-- The last call of a run is the latest. -/
theorem Clocked.le_last {init : List FirewallCall} (h : Clocked (init ++ [last]))
    (hmem : first ∈ init ++ [last]) : first.nowNs.toNat ≤ last.nowNs.toNat ∧
      first.droppedTotal.toNat ≤ last.droppedTotal.toNat := by
  rcases List.mem_append.mp hmem with hm | hm
  · exact ⟨(List.pairwise_append.mp h.time).2.2 first hm last (by simp),
      (List.pairwise_append.mp h.drops).2.2 first hm last (by simp)⟩
  · rw [List.mem_singleton.mp hm]
    exact ⟨le_rfl, le_rfl⟩

/-- The metadata of a key that was seen is still there, so it has to be seen again. -/
theorem MeasuredFromStay.subset_last {init : List FirewallCall} (hclock : Clocked (init ++ [last]))
    (h : MeasuredFromStay (init ++ [last])) (hc : c ∈ init) : c.keys ⊆ last.keys := by
  intro key hk
  have hfound : (firstSeen (init ++ [last]) key).isSome := by
    rw [firstSeen, List.find?_isSome]
    exact ⟨c, List.mem_append_left _ hc, by simpa using hk⟩
  have hget := (fromFirstSeen _ hclock.pos).get key
  obtain ⟨key', hk', hid⟩ := h.kept last (List.getLast?_concat ..) (firewallId key)
    (Table.mem_keys_iff_isSome.mpr (by rw [hget, Option.isSome_map, hfound]))
  rwa [← firewallId_injective hid]

/-- Where no entry goes away the rows are measured from the current stays. -/
theorem measuredFromStay_of_subset (hclock : Clocked calls)
    (hstays : calls.Pairwise fun c c' => c.keys ⊆ c'.keys) : MeasuredFromStay calls := by
  have hfirst := fromFirstSeen calls hclock.pos
  constructor
  · rintro last hlast
    obtain ⟨init, rfl⟩ := List.getLast?_eq_some_iff.mp hlast
    rw [hfirst.rows last hlast, List.map_map]
    apply List.map_congr_left
    rintro key hk
    have hstay : (currentStay (init ++ [last]) key).head? = firstSeen (init ++ [last]) key :=
      head?_currentStay (hstays.imp fun hsub hmem => hsub hmem)
    rw [hstay]
    cases hseen : firstSeen (init ++ [last]) key with
    | none =>
      rw [firstSeen, List.find?_eq_none] at hseen
      exact absurd hk (by simpa using hseen last (by simp))
    | some first =>
      obtain ⟨htime, hdrops⟩ := hclock.le_last (List.mem_of_find?_eq_some hseen)
      rw [Function.comp_apply, hseen, Option.map_some, Option.map_some, Option.getD_some,
        firewallRow_eq_rowSince htime hdrops]
  · rintro last hlast id hid
    obtain ⟨init, rfl⟩ := List.getLast?_eq_some_iff.mp hlast
    obtain ⟨c, hc, key, hk, hkey⟩ := hfirst.keys id hid
    refine ⟨key, ?_, hkey⟩
    rcases List.mem_append.mp hc with hc | hc
    · exact (List.pairwise_append.mp hstays).2.2 c hc last (by simp) hk
    · rwa [← List.mem_singleton.mp hc]

/-- The rows are measured from the current stays, and only they have metadata, in exactly the runs
in which no entry that a call saw is missing in a later one. -/
theorem measuredFromStay_iff (h : Clocked calls) :
    (∀ past, past <+: calls → MeasuredFromStay past) ↔
      calls.Pairwise fun c c' => c.keys ⊆ c'.keys := by
  constructor
  · intro hall
    induction calls using List.reverseRecOn with
    | nil => exact .nil
    | append_singleton calls last ih =>
      have hpre : calls <+: calls ++ [last] := List.prefix_append calls [last]
      rw [List.pairwise_append]
      refine ⟨ih (h.of_prefix hpre) fun past hp => hall past (hp.trans hpre),
        List.pairwise_singleton _ _, ?_⟩
      rintro c hc last' hlast
      obtain rfl := List.mem_singleton.mp hlast
      exact (hall _ List.prefix_rfl).subset_last h hc
  · rintro hsub past hp
    exact measuredFromStay_of_subset (h.of_prefix hp) (hsub.sublist hp.sublist)

/-- A call on a blacklist that the kernel lists in the order of its table. -/
def callOn (blacklist : LpmTrie) (nowNs droppedTotal : UInt64) : FirewallCall :=
  ⟨Buckets.nextKey (blacklist.stored.map Prod.fst), blacklist, blacklist.stored,
    enumerates_stored blacklist, nowNs, droppedTotal⟩

/-- A blacklist with one address. -/
def oneEntry : LpmTrie := (LpmTrie.empty.update (hostKey 7) 1).getD .empty

/-- An address that is blocked before the second call and stays until the third one, ten seconds and
seven drops later. -/
def staying : List FirewallCall :=
  [callOn .empty 500000000 2, callOn oneEntry 1000000000 5, callOn oneEntry 11000000000 12]

theorem measuredFromStay_kept : MeasuredFromStay staying ∧
    (refreshAll staying).rows = [⟨32, 7, 10, 7⟩] := by
  refine ⟨?_, by decide⟩
  apply (measuredFromStay_iff _).mpr _ _ List.prefix_rfl
  · exact ⟨by decide, by decide, by decide⟩
  · decide

/-- An address that is removed and blocked again after ten seconds and seven drops. -/
def blockedAgain : List FirewallCall :=
  [callOn oneEntry 1000000000 5, callOn .empty 6000000000 8, callOn oneEntry 11000000000 12]

/-- Its row goes on where the first one stopped. -/
theorem not_measuredFromStay_blockedAgain :
    Clocked blockedAgain ∧ ¬ MeasuredFromStay blockedAgain := by
  refine ⟨⟨by decide, by decide, by decide⟩, ?_⟩
  rintro h
  have hrows := h.rows (callOn oneEntry 11000000000 12) rfl
  revert hrows
  decide

end KWatch.Top
