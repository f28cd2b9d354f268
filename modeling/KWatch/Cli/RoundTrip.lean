import KWatch.Cli.EndToEnd
import KWatch.Cli.Listing
import KWatch.Util.Cidr

/-! # From the list back to the blacklist

The list command prints each stored key as a CIDR, with its host bits. The parser reads the line
back to the same key, which lies in the network of its entry, so that the unblock command removes
the entry. The command removes no two entries with one line and therefore takes the lines in any
order.
-/

namespace KWatch

/-! ### The stored keys -/

namespace LpmTrie

/-- The entries with the keys last written for them. -/
def stored (t : LpmTrie) : List (LpmKey × UInt8) := t.table.entries.map Prod.snd

theorem mem_entries_of_mem_stored {t : LpmTrie} {e : LpmKey × UInt8} (h : e ∈ t.stored) :
    (e.1.network, e) ∈ t.table.entries := by
  obtain ⟨⟨n, e'⟩, hm, rfl⟩ := List.mem_map.mp h
  obtain ⟨hn, -⟩ := t.keyed n e' hm
  rw [hn]
  exact hm

theorem prefixlen_le_of_mem_stored {t : LpmTrie} {e : LpmKey × UInt8} (h : e ∈ t.stored) :
    e.1.prefixlen.toNat ≤ 32 :=
  (t.keyed _ e (mem_entries_of_mem_stored h)).2

theorem map_network_stored (t : LpmTrie) : (t.stored.map fun e => e.1.network) = t.networks := by
  rw [stored, List.map_map, networks, Table.keys]
  apply List.map_congr_left
  intro e he
  exact (t.keyed e.1 e.2 he).1

theorem length_stored (t : LpmTrie) : t.stored.length = t.table.size := List.length_map _

/-- A stored key finds its own entry, because no longer one matches it. -/
theorem lookup_of_mem_stored {t : LpmTrie} {e : LpmKey × UInt8} (h : e ∈ t.stored) :
    t.lookup e.1 = some e.2 := by
  have hget : t.table.get? (Block.around 32 e.1.prefixlen.toNat (be32ToCpu e.1.data)) = some e :=
    Table.get?_eq_some_iff.mpr (mem_entries_of_mem_stored h)
  rw [lookup, Lpm.longest, List.range_succ, List.reverse_append, List.reverse_singleton,
    List.singleton_append, List.findSome?_cons, hget]
  rfl

end LpmTrie

/-! ### The scan -/

/-- The kernel hands out the keys of a trie, each once, in the order of the given entries. -/
structure Enumerates (getNextKey : Option LpmKey → Option LpmKey) (t : LpmTrie)
    (order : List (LpmKey × UInt8)) : Prop where
  perm : order.Perm t.stored
  first : getNextKey none = order.head?.map Prod.fst
  next : ∀ p e s, order = p ++ e :: s → getNextKey (some e.1) = s.head?.map Prod.fst

/-- The blacklist as the list command sees it. -/
def openBlacklist (getNextKey : Option LpmKey → Option LpmKey) (t : LpmTrie) :
    OpenMap LpmKey UInt8 :=
  ⟨getNextKey, t.lookup, blacklistMaxEntries⟩

variable {getNextKey : Option LpmKey → Option LpmKey} {t : LpmTrie}
  {order : List (LpmKey × UInt8)} {host : Host} {ifName : Text}

theorem Enumerates.walks (h : Enumerates getNextKey t order) :
    (openBlacklist getNextKey t).Walks order := by
  constructor
  · exact h.first
  · exact h.next
  · intro e he
    exact LpmTrie.lookup_of_mem_stored (h.perm.mem_iff.mp he)
  · rw [h.perm.length_eq, LpmTrie.length_stored]
    exact t.bounded

theorem cmdList_of_enumerates (hlive : LiveOwner host ifName)
    (h : Enumerates getNextKey t order) :
    cmdList host [ifName] (openBlacklist getNextKey t) = (0, order.map listLine) := by
  have hfd : ¬getBlacklistFd host ifName < 0 := not_lt.mpr hlive
  unfold cmdList
  dsimp only
  rw [if_neg hfd, h.walks.scan_none]

/-- A walk in the order of the table. -/
theorem enumerates_stored (t : LpmTrie) :
    Enumerates (Buckets.nextKey (t.stored.map Prod.fst)) t t.stored := by
  constructor
  · exact .refl _
  · exact List.head?_map
  · intro p e s he
    have hn : (t.stored.map Prod.fst).Nodup := by
      apply List.Nodup.of_map LpmKey.network
      rw [List.map_map]
      exact t.map_network_stored ▸ t.networks_nodup
    rw [he] at hn ⊢
    exact Buckets.nextKey_map_fst hn

/-! ### A printed line -/

/-- A line without its end. -/
def lineText (line : Text) : Text := line.takeWhile (· != '\n')

theorem lineText_listLine (e : LpmKey × UInt8) :
    lineText (listLine e) = Ipv4.format e.1.data ++ '/' :: decimal e.1.prefixlen.toNat := by
  have hformat : '\n' ∉ Ipv4.format e.1.data :=
    Ipv4.notMem_of_inetPton (Ipv4.inetPton_format _) (by decide) (by decide)
  have hdec : '\n' ∉ decimal e.1.prefixlen.toNat := by
    intro hm
    exact absurd (Ipv4.isDigit_of_mem_toDigits hm) (by decide)
  have hline : ∀ c ∈ Ipv4.format e.1.data ++ '/' :: decimal e.1.prefixlen.toNat,
      (c != '\n') = true := by
    intro c hc
    rw [bne_iff_ne]
    rintro rfl
    rcases List.mem_append.mp hc with hc | hc
    · exact hformat hc
    · rcases List.mem_cons.mp hc with hc | hc
      · cases hc
      · exact hdec hc
  rw [lineText, listLine]
  exact Scan.takeWhile_append hline (by simp)

/-- A printed line is a CIDR. -/
theorem cidrText_listLine {e : LpmKey × UInt8} (h : e.1.prefixlen.toNat ≤ 32) :
    Ipv4.CidrText (lineText (listLine e)) e.1.data e.1.prefixlen.toUInt8 := by
  have hval : Ipv4.decimalValue (decimal e.1.prefixlen.toNat) = e.1.prefixlen.toNat :=
    Ipv4.decimalValue_toDigits _
  have hlen : e.1.prefixlen.toUInt8 =
      UInt8.ofNat (Ipv4.decimalValue (decimal e.1.prefixlen.toNat)) := by
    rw [hval]
    rfl
  rw [lineText_listLine, hlen]
  apply Ipv4.CidrText.network (Ipv4.inetPton_format _) Nat.toDigits_ne_nil
  · intro c hc
    exact Ipv4.isDigit_of_mem_toDigits hc
  · exact hval.trans_le h

theorem parseCidr_listLine {e : LpmKey × UInt8} (h : e.1.prefixlen.toNat ≤ 32) :
    Ipv4.parseCidr (lineText (listLine e)) = .ok (e.1.data, e.1.prefixlen.toUInt8) :=
  (cidrText_listLine h).parseCidr

/-- The key the unblock command makes of a printed line. -/
theorem cidrKey_listLine {k : LpmKey} (h : k.prefixlen.toNat ≤ 32) :
    cidrKey (k.data, k.prefixlen.toUInt8) = k := by
  have hlen : k.prefixlen.toUInt8.toUInt32 = k.prefixlen := by
    rw [← UInt32.toNat_inj, UInt8.toNat_toUInt32, UInt32.toNat_toUInt8]
    omega
  rw [cidrKey, hlen]

/-! ### Removing the lines -/

/-- One line removes its network. -/
theorem editOne_unblock_listLine {e : LpmKey × UInt8} (h : e.1.prefixlen.toNat ≤ 32) (ok : Bool)
    (hm : e.1.network ∈ t.networks) :
    ∃ u, editOne .unblock (ok, t) (lineText (listLine e)) = (ok, u) ∧
      ∀ n, n ∈ u.networks ↔ n ≠ e.1.network ∧ n ∈ t.networks := by
  obtain ⟨u, hu⟩ := Option.isSome_iff_exists.mp (LpmTrie.delete_isSome_iff.mpr hm)
  refine ⟨u, ?_, fun n => LpmTrie.mem_networks_delete hu⟩
  rw [editOne, parseCidr_listLine h]
  dsimp only
  rw [cidrKey_listLine h, Verb.mapOp, hu]

/-- The lines of all entries leave nothing. -/
theorem foldl_unblock_lines {es : List (LpmKey × UInt8)}
    (hle : ∀ e ∈ es, e.1.prefixlen.toNat ≤ 32) (hnodup : (es.map fun e => e.1.network).Nodup)
    (hall : ∀ n, n ∈ t.networks ↔ n ∈ es.map fun e => e.1.network) :
    ∃ u, (es.map fun e => lineText (listLine e)).foldl (editOne .unblock) (true, t) = (true, u) ∧
      u.networks = [] := by
  induction es generalizing t with
  | nil =>
    refine ⟨t, rfl, List.eq_nil_iff_forall_not_mem.mpr fun n hn => ?_⟩
    exact List.not_mem_nil ((hall n).mp hn)
  | cons e es ih =>
    rw [List.map_cons, List.nodup_cons] at hnodup
    have hm : e.1.network ∈ t.networks := (hall _).mpr List.mem_cons_self
    obtain ⟨u, hstep, hu⟩ := editOne_unblock_listLine (hle e List.mem_cons_self) true hm
    have hrest : ∀ n, n ∈ u.networks ↔ n ∈ es.map fun e => e.1.network := by
      intro n
      rw [hu, hall, List.map_cons, List.mem_cons]
      constructor
      · rintro ⟨hne, hn⟩
        exact hn.resolve_left hne
      · intro hn
        refine ⟨?_, .inr hn⟩
        rintro rfl
        exact hnodup.1 hn
    rw [List.map_cons, List.foldl_cons, hstep]
    exact ih (fun e he => hle e (List.mem_cons_of_mem _ he)) hnodup.2 hrest

/-- The lines of the list command in some order, as arguments of the unblock command. -/
theorem cmdUnblock_lines (hlive : LiveOwner host ifName) (hne : t.networks ≠ [])
    {args : List Text} (hargs : args.Perm (t.stored.map fun e => lineText (listLine e))) :
    ∃ u, cmdUnblock host (ifName :: args) t = (0, u) ∧ u.networks = [] := by
  have hcomp := congrFun (congrFun (List.eq_map_comp_perm fun e => lineText (listLine e)) args)
    t.stored
  obtain ⟨es, rfl, hperm⟩ := hcomp.mpr hargs
  have hnet : (es.map fun e => e.1.network).Perm t.networks := by
    rw [← LpmTrie.map_network_stored]
    exact hperm.map _
  obtain ⟨u, hfold, hu⟩ := foldl_unblock_lines
    (fun e he => LpmTrie.prefixlen_le_of_mem_stored (hperm.mem_iff.mp he))
    (hnet.nodup_iff.mpr t.networks_nodup) (fun n => hnet.mem_iff.symm)
  obtain ⟨e, es, rfl⟩ := List.exists_cons_of_ne_nil (show es ≠ [] by
    rintro rfl
    exact hne (List.nil_perm.mp hnet))
  have hfd : ¬getBlacklistFd host ifName < 0 := not_lt.mpr hlive
  refine ⟨u, ?_, hu⟩
  rw [List.map_cons] at hfold ⊢
  rw [cmdUnblock, editBlacklist, if_neg hfd, hfold]
  rfl

/-! ### The two commands -/

/-- What the list command prints of a blacklist, and what the unblock command makes of it. -/
structure UnblocksListed (host : Host) (ifName : Text)
    (getNextKey : Option LpmKey → Option LpmKey) (t : LpmTrie) : Prop where
  listed : ∃ entries : List (LpmKey × UInt8), entries.Perm t.stored ∧
    cmdList host [ifName] (openBlacklist getNextKey t) = (0, entries.map listLine)
  parsed : ∀ e : LpmKey × UInt8, e.1.prefixlen.toNat ≤ 32 →
    ∃ len, Ipv4.parseCidr (lineText (listLine e)) = .ok (e.1.data, len) ∧
      len.toNat = e.1.prefixlen.toNat
  unblocked : ∀ args : List Text,
    args.Perm ((cmdList host [ifName] (openBlacklist getNextKey t)).2.map lineText) →
    ∃ u, cmdUnblock host (ifName :: args) t = (0, u) ∧ u.networks = []

/-- The unblock command removes what the list command prints of a blacklist with an entry. -/
theorem unblocks_listed (hlive : LiveOwner host ifName) (h : Enumerates getNextKey t order)
    (hne : t.networks ≠ []) : UnblocksListed host ifName getNextKey t := by
  constructor
  · exact ⟨order, h.perm, cmdList_of_enumerates hlive h⟩
  · intro e he
    refine ⟨_, parseCidr_listLine he, ?_⟩
    rw [UInt32.toNat_toUInt8]
    omega
  · intro args hargs
    apply cmdUnblock_lines hlive hne
    rw [cmdList_of_enumerates hlive h, List.map_map] at hargs
    exact hargs.trans (h.perm.map _)

/-- The networks 10.0.0.0/8 and 0.0.0.0/0, written with host bits. -/
def twoNetworks : LpmTrie where
  table := ⟨[(⟨8, 10⟩, (⟨8, 0x0302010A⟩, 1)), (⟨0, 0⟩, (⟨0, 0x04030201⟩, 1))], by decide⟩
  keyed n e h := by
    simp only [List.mem_cons, Prod.mk.injEq, List.not_mem_nil, or_false] at h
    rcases h with ⟨rfl, rfl⟩ | ⟨rfl, rfl⟩ <;> decide
  bounded := by decide

theorem liveOwner_liveHost (ifName : Text) : LiveOwner liveHost ifName := by
  simp [LiveOwner, getBlacklistFd, liveHost]

theorem unblocks_listed_two : UnblocksListed liveHost "lo".toList
    (Buckets.nextKey (twoNetworks.stored.map Prod.fst)) twoNetworks :=
  unblocks_listed (liveOwner_liveHost _) (enumerates_stored twoNetworks) (by decide)

/-- An empty blacklist prints no line, and without a line the unblock command is misused. -/
theorem empty_not_unblocked : LiveOwner liveHost "lo".toList ∧
    Enumerates (Buckets.nextKey []) .empty [] ∧
    ¬UnblocksListed liveHost "lo".toList (Buckets.nextKey []) .empty := by
  have henum : Enumerates (Buckets.nextKey []) .empty [] := enumerates_stored .empty
  refine ⟨liveOwner_liveHost _, henum, fun h => ?_⟩
  have hnil : ([] : List Text).Perm
      ((cmdList liveHost ["lo".toList] (openBlacklist (Buckets.nextKey []) .empty)).2.map
        lineText) := by
    rw [cmdList_of_enumerates (liveOwner_liveHost _) henum]
    exact .refl _
  obtain ⟨u, hu, -⟩ := h.unblocked [] hnil
  cases hu

end KWatch
