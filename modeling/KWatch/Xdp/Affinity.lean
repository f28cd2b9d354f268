import KWatch.Library.Timeline
import KWatch.Xdp.Counters
import KWatch.Xdp.Transport

/-! # One processor for a flow

A network card hands all packets of a flow to one processor. Then the flow accounting of the
processors does not interfere, however their accesses interleave: without evictions the entries of
a processor's flows are those of its own packets, processed one after another. Two processors
that share a flow can lose a SYN.
-/

namespace KWatch

open Config

/-- The helpers answer anew at every access; the number counts the accesses of all processors. -/
def xdpSysAt (env : ℕ → Helpers) : Handler XdpCall XdpCall.Result (ℕ × Maps) :=
  fun op s => ((xdpSys (env s.1) op s.2).1, s.1 + 1, (xdpSys (env s.1) op s.2).2)

/-- The packets of one processor. -/
def processFrames (cfg : KwatchRuntimeConfig) : List Frame → XdpProg Unit
  | [] => pure ()
  | f :: fs => do
    let _ ← Calls.xdpKwatchProg cfg f
    processFrames cfg fs

/-- Processors that are about to process their packets. -/
def processInParallel {ι : Type} (cfg : KwatchRuntimeConfig) (frames : ι → List Frame) (m : Maps) :
    Config ι XdpCall XdpCall.Result (ℕ × Maps) Unit :=
  ⟨fun i => processFrames cfg (frames i), 0, m⟩

/-- A frame that arrives when the helpers answer as at some access. -/
def arrivalAt (env : ℕ → Helpers) (b : LpmTrie) (x : ℕ × Frame) : Arrival := ⟨x.2, env x.1, b⟩

/-- The flow of a frame that is not dropped. -/
def flowOf (b : LpmTrie) (f : Frame) : Option KwatchFlowKey :=
  (acceptedPacket b (frameView f)).map (keyOf f)

/-! ### What a processor sees of the others -/

/-- Time has passed, and the blacklist and the flows of a kind are as before. -/
structure Untouched (mine : KwatchFlowKey → Prop) (s t : ℕ × Maps) : Prop where
  clock : s.1 ≤ t.1
  blacklist : t.2.blacklist = s.2.blacklist
  flows : ∀ key, mine key → t.2.flowState.get? key = s.2.flowState.get? key

namespace Untouched

variable {mine : KwatchFlowKey → Prop} {s t u : ℕ × Maps}

theorem refl (s : ℕ × Maps) : Untouched mine s s := ⟨le_rfl, rfl, fun _ _ => rfl⟩

theorem trans (h : Untouched mine s t) (h' : Untouched mine t u) : Untouched mine s u :=
  ⟨h.clock.trans h'.clock, h'.blacklist.trans h.blacklist,
    fun key hk => (h'.flows key hk).trans (h.flows key hk)⟩

theorem mono {mine' : KwatchFlowKey → Prop} (h : Untouched mine s t)
    (himp : ∀ key, mine' key → mine key) : Untouched mine' s t :=
  ⟨h.clock, h.blacklist, fun key hk => h.flows key (himp key hk)⟩

end Untouched

/-- The flow that an access may write. -/
def XdpCall.flowWritten : XdpCall → Option KwatchFlowKey
  | insertFlow key _ | restartFlow key _ | touchFlow key _ | addSyn key | addAck key => some key
  | _ => none

theorem blacklist_storeFlow (key : KwatchFlowKey) (g : KwatchFlowStats → KwatchFlowStats)
    (m : Maps) : (m.storeFlow key g).blacklist = m.blacklist := by
  unfold Maps.storeFlow
  split <;> rfl

theorem get?_storeFlow (key : KwatchFlowKey) (g : KwatchFlowStats → KwatchFlowStats) (m : Maps)
    (key' : KwatchFlowKey) : (m.storeFlow key g).flowState.get? key' =
      if key' = key then (m.flowState.get? key).map g else m.flowState.get? key' := by
  unfold Maps.storeFlow
  cases hs : m.flowState.get? key with
  | some s => simp [Table.get?_set]
  | none =>
    by_cases hk : key' = key
    · simp [hk, hs]
    · simp [hk]

theorem blacklist_xdpSys (h : Helpers) (op : XdpCall) (m : Maps) :
    (xdpSys h op m).2.blacklist = m.blacklist := by
  cases op with
  | addCount proto => simp only [xdpSys]; split <;> rfl
  | insertCount proto => simp only [xdpSys]; split <;> rfl
  | insertFlow key stats => simp only [xdpSys]; split <;> rfl
  | restartFlow | touchFlow | addSyn | addAck => exact blacklist_storeFlow _ _ m
  | _ => rfl

/-- Without evictions an access changes no flow but the one it writes. -/
theorem flowState_xdpSys {h : Helpers} (hlru : h.lruVictims = []) (op : XdpCall) (m : Maps)
    {key : KwatchFlowKey} (hk : op.flowWritten ≠ some key) :
    (xdpSys h op m).2.flowState.get? key = m.flowState.get? key := by
  cases op with
  | addCount proto => simp only [xdpSys]; split <;> rfl
  | insertCount proto => simp only [xdpSys]; split <;> rfl
  | insertFlow key' stats =>
    have hne : key ≠ key' := fun he => hk (congrArg some he.symm)
    simp only [xdpSys, hlru, List.foldl_nil]
    split
    · rfl
    · exact Table.get?_set_ne _ hne _
  | restartFlow key' | touchFlow key' | addSyn key' | addAck key' =>
    have hne : key ≠ key' := fun he => hk (congrArg some he.symm)
    simp only [xdpSys, get?_storeFlow, if_neg hne]
  | _ => rfl

/-! ### The accounting of one processor -/

section Processor

variable {env : ℕ → Helpers} {cfg : KwatchRuntimeConfig} {mine : KwatchFlowKey → Prop}

/-- The blacklist and the flows of a kind are those of other maps, and it is late enough. -/
structure Mirrors (mine : KwatchFlowKey → Prop) (m : Maps) (n : ℕ) (s : ℕ × Maps) : Prop where
  clock : n ≤ s.1
  blacklist : s.2.blacklist = m.blacklist
  flows : ∀ key, mine key → s.2.flowState.get? key = m.flowState.get? key

/-- The accounting of a processor, as far as its flows go. -/
abbrev Accounts (env : ℕ → Helpers) (mine : KwatchFlowKey → Prop) {α : Type}
    (post : α → ℕ × Maps → Prop) (p : XdpProg α) (s : ℕ × Maps) : Prop :=
  Outline (xdpSysAt env) (fun _ _ => True) (Untouched mine) (Untouched fun key => ¬ mine key) post
    p s

/-- The rule of sequencing, with the property in the middle. -/
theorem accounts_bind {α β : Type} {p : XdpProg α} {f : α → XdpProg β} {s : ℕ × Maps}
    (Q : α → ℕ × Maps → Prop) {R : β → ℕ × Maps → Prop} (hp : Accounts env mine Q p s)
    (hf : ∀ a t, Q a t → Accounts env mine R (f a) t) : Accounts env mine R (p >>= f) s :=
  hp.bind Untouched.refl hf

theorem Mirrors.untouched {m : Maps} {n : ℕ} {s t : ℕ × Maps} (h : Mirrors mine m n s)
    (ht : Untouched mine s t) : Mirrors mine m n t :=
  ⟨h.clock.trans ht.clock, ht.blacklist.trans h.blacklist,
    fun key hk => (ht.flows key hk).trans (h.flows key hk)⟩

theorem Mirrors.later {m : Maps} {n n' : ℕ} {s : ℕ × Maps} (h : Mirrors mine m n s)
    (hn : n' ≤ s.1) : Mirrors mine m n' s := ⟨hn, h.blacklist, h.flows⟩

theorem Mirrors.congr {m m' : Maps} {n : ℕ} {s : ℕ × Maps} (h : Mirrors mine m n s)
    (hb : m'.blacklist = m.blacklist) (hf : m'.flowState = m.flowState) : Mirrors mine m' n s :=
  ⟨h.clock, h.blacklist.trans hb.symm, fun key hk => by rw [hf, h.flows key hk]⟩

variable (hlru : ∀ n, (env n).lruVictims = [])

include hlru

/-- What an access that writes a flow of the processor, or none, leaves to the others. -/
theorem untouched_access {op : XdpCall} (hop : ∀ key, op.flowWritten = some key → mine key)
    (s : ℕ × Maps) : Untouched (fun key => ¬ mine key) s (xdpSysAt env op s).2 := by
  refine ⟨Nat.le_succ _, blacklist_xdpSys _ op s.2, fun key hk => ?_⟩
  exact flowState_xdpSys (hlru s.1) op s.2 fun he => hk (hop key he)

theorem mirrors_access {op : XdpCall} (hop : op.flowWritten = none) {m : Maps} {n : ℕ}
    {s : ℕ × Maps} (hs : Mirrors mine m n s) : Mirrors mine m n (xdpSysAt env op s).2 := by
  refine ⟨hs.clock.trans (Nat.le_succ _), (blacklist_xdpSys _ op s.2).trans hs.blacklist, ?_⟩
  intro key hk
  rw [← hs.flows key hk]
  exact flowState_xdpSys (hlru s.1) op s.2 (by simp [hop])

/-- A program that writes no flow keeps what the processor sees. -/
theorem accounts_of_reads {α : Type} {p : XdpProg α}
    (hp : Prog.Uses (fun op => op.flowWritten = none) p) {m : Maps} {n : ℕ} {s : ℕ × Maps}
    (hs : Mirrors mine m n s) : Accounts env mine (fun _ t => Mirrors mine m n t) p s := by
  refine outline_of_uses (fun _ _ h ht => h.untouched ht) (fun op hop t ht _ => ?_) hp hs
  exact ⟨untouched_access hlru (by simp [hop]) t, mirrors_access hlru hop ht⟩

/-- A store into an entry of one of the processor's flows. -/
theorem accounts_store {key : KwatchFlowKey} {g : KwatchFlowStats → KwatchFlowStats} {m : Maps}
    {stats : KwatchFlowStats} {n : ℕ} (op : XdpCall) (hw : op.flowWritten = some key)
    (hop : ∀ h m, (xdpSys h op m).2 = m.storeFlow key g) (hkey : mine key) {s : ℕ × Maps}
    (hs : Mirrors mine { m with flowState := m.flowState.set key stats } n s) :
    Accounts env mine
      (fun _ => Mirrors mine { m with flowState := m.flowState.set key (g stats) } n)
      (access op) s := by
  intro t hst _
  have ht := hs.untouched hst
  have hget : t.2.flowState.get? key = some stats := by simp [ht.flows key hkey]
  refine ⟨untouched_access hlru (by simp [hw, hkey]) t, fun u hu => Mirrors.untouched ?_ hu⟩
  refine ⟨ht.clock.trans (Nat.le_succ _), ?_, fun key' hk => ?_⟩
  · exact (blacklist_xdpSys _ op t.2).trans ht.blacklist
  · simp only [xdpSysAt, hop, get?_storeFlow, hget, Option.map_some, ht.flows key' hk,
      Table.get?_set]
    split <;> rfl

omit hlru in
/-- A conditional part before the rest of a program. -/
theorem accounts_when {c : Prop} [Decidable c] {α : Type} {p : XdpProg Unit}
    {f : Unit → XdpProg α} {s : ℕ × Maps} (Q : ℕ × Maps → Prop) {R : α → ℕ × Maps → Prop}
    (hp : c → Accounts env mine (fun _ => Q) p s) (hn : ¬ c → Q s)
    (hf : ∀ t, Q t → Accounts env mine R (f ()) t) :
    Accounts env mine R (if c then p >>= f else f ()) s := by
  split
  · next hc => exact accounts_bind (fun _ => Q) (hp hc) fun _ => hf
  · next hc => exact hf s (hn hc)

variable (cfg) in
/-- The stores into the entry of a known flow. -/
theorem accounts_update {key : KwatchFlowKey} (hkey : mine key) (flags : UInt8) (now : UInt64)
    {m : Maps} {stats : KwatchFlowStats} (hget : m.flowState.get? key = some stats) {n : ℕ}
    {s : ℕ × Maps} (hs : Mirrors mine m n s) :
    Accounts env mine (fun _ : Bool => Mirrors mine
      { m with flowState := m.flowState.set key (updateFlowStats cfg now flags stats) } n)
      (do
        if 0 < cfg.synWindowNs ∧ stats.firstSeenNs < now ∧
            cfg.synWindowNs < now - stats.firstSeenNs then
          access (.restartFlow key now)
        access (.touchFlow key now)
        if flags &&& 0x02 ≠ 0 then access (.addSyn key)
        if flags &&& 0x10 ≠ 0 then access (.addAck key)
        pure false) s := by
  let Holds (r : KwatchFlowStats) : ℕ × Maps → Prop :=
    Mirrors mine { m with flowState := m.flowState.set key r } n
  have hs₀ : Holds stats s := by
    refine ⟨hs.clock, hs.blacklist, fun key' hk => ?_⟩
    rw [hs.flows key' hk, Table.get?_set]
    split
    · next he => rw [he, hget]
    · rfl
  set r := restartWindow cfg now stats with hr
  set r₁ : KwatchFlowStats := { r with lastSeenNs := now } with hr₁
  set r₂ : KwatchFlowStats :=
    { r₁ with synCount := if flags &&& 0x02 ≠ 0 then r₁.synCount + 1 else r₁.synCount } with hr₂
  refine accounts_when (Holds r) (fun hc => ?_) (fun hc => ?_) fun s hs => ?_
  · rw [hr, restartWindow, if_pos hc]
    exact accounts_store hlru (.restartFlow key now) rfl (fun _ _ => rfl) hkey hs₀
  · rw [hr, restartWindow, if_neg hc]
    exact hs₀
  refine accounts_bind (fun _ => Holds r₁) ?_ fun _ s hs => ?_
  · exact accounts_store hlru (.touchFlow key now) rfl (fun _ _ => rfl) hkey hs
  refine accounts_when (Holds r₂) (fun hc => ?_) (fun hc => ?_) fun s hs => ?_
  · rw [hr₂, if_pos hc]
    exact accounts_store hlru (.addSyn key) rfl (fun _ _ => rfl) hkey hs
  · rw [hr₂, if_neg hc]
    exact hs
  refine accounts_when (Holds (updateFlowStats cfg now flags stats)) (fun hc => ?_) (fun hc => ?_)
    fun s hs => ?_
  · rw [updateFlowStats, if_pos hc]
    exact accounts_store hlru (.addAck key) rfl (fun _ _ => rfl) hkey hs
  · rw [updateFlowStats, if_neg hc]
    exact hs
  exact fun t ht => hs.untouched ht

/-- The accounting reads the clock at some moment and does to the processor's flows what it does
at once then. -/
theorem accounts_accountFlow {key : KwatchFlowKey} (hkey : mine key) (flags : UInt8) {m : Maps}
    {n : ℕ} {s : ℕ × Maps} (hs : Mirrors mine m n s) :
    Accounts env mine (fun _ t => ∃ n', n ≤ n' ∧ Mirrors mine
      { m with flowState := (accountFlow cfg (env n') key flags m.flowState).1 } n' t)
      (Calls.accountFlow cfg key flags) s := by
  refine outline_step_bind fun t hst _ => ?_
  have ht := hs.untouched hst
  have hget : (xdpSysAt env (.lookupFlow key) t).1 = m.flowState.get? key := ht.flows key hkey
  have ht' : Mirrors mine m n (xdpSysAt env (.lookupFlow key) t).2 := mirrors_access hlru rfl ht
  refine ⟨untouched_access hlru (by simp [XdpCall.flowWritten]) t, ?_⟩
  rw [hget]
  refine outline_step_bind fun u htu _ => ?_
  have hnow : (xdpSysAt env .flowTime u).1 = (env u.1).nowNs := rfl
  have hn : n ≤ u.1 := (ht'.untouched htu).clock
  have hu : Mirrors mine m u.1 (xdpSysAt env .flowTime u).2 :=
    (mirrors_access hlru rfl (ht'.untouched htu)).later (Nat.le_succ _)
  refine ⟨untouched_access hlru (by simp [XdpCall.flowWritten]) u, ?_⟩
  rw [hnow]
  cases hstats : m.flowState.get? key with
  | none =>
    refine outline_step_bind fun v huv _ => ?_
    have hv := hu.untouched huv
    have habs : key ∉ v.2.flowState.keys := by
      rw [← Table.get?_eq_none_iff, hv.flows key hkey, hstats]
    refine ⟨untouched_access hlru (by simp [XdpCall.flowWritten, hkey]) v, fun w hw => ?_⟩
    refine ⟨u.1, hn, Mirrors.untouched ?_ hw⟩
    refine ⟨hv.clock.trans (Nat.le_succ _), (blacklist_xdpSys _ _ v.2).trans hv.blacklist, ?_⟩
    intro key' hk
    simp only [xdpSysAt, xdpSys, if_neg habs, hlru, List.foldl_nil, accountFlow, hstats,
      Table.get?_set, hv.flows key' hk]
  | some stats =>
    have hup := accounts_update cfg hlru hkey flags (env u.1).nowNs hstats hu
    refine hup.mono fun _ t ht => ⟨u.1, hn, ?_⟩
    simpa only [accountFlow, hstats] using ht

theorem accounts_incCount (k : UInt32) {m : Maps} {n : ℕ} {s : ℕ × Maps}
    (hs : Mirrors mine m n s) :
    Accounts env mine (fun _ => Mirrors mine m n) (Calls.incCount k) s :=
  accounts_of_reads hlru (Calls.uses_incCount rfl rfl rfl) hs

theorem accounts_emitEvent (f : Frame) (ip : Ipv4View) (action : UInt8) (isNew : Bool) {m : Maps}
    {n : ℕ} {s : ℕ × Maps} (hs : Mirrors mine m n s) :
    Accounts env mine (fun _ => Mirrors mine m n) (Calls.emitEvent cfg f ip action isNew) s :=
  accounts_of_reads hlru
    (Calls.uses_emitEvent cfg f ip action isNew rfl rfl rfl rfl fun _ => rfl) hs

omit hlru in
/-- A run on a frame that is not accepted leaves the flows alone. -/
theorem Mirrors.runView_of_none {m : Maps} {n : ℕ} {s : ℕ × Maps} (hs : Mirrors mine m n s)
    {h : Helpers} {f : Frame} {v : FrameView} (hv : acceptedPacket m.blacklist v = none) :
    Mirrors mine (runView cfg h f m v).2 n s :=
  hs.congr (runView_blacklist ..) (by rw [runView_flowState, hv])

theorem accounts_ipv4Packet {m : Maps} {f : Frame} {ip : Ipv4View}
    (hf : isBlacklisted m.blacklist ip = false → mine (keyOf f ip)) {n : ℕ} {s : ℕ × Maps}
    (hs : Mirrors mine m n s) :
    Accounts env mine (fun _ t => ∃ n', n ≤ n' ∧
      Mirrors mine (runView cfg (env n') f m (.ipv4 ip)).2 n' t) (Calls.ipv4Packet cfg f ip) s := by
  rw [Calls.ipv4Packet_eq]
  refine outline_step_bind fun t hst _ => ?_
  have ht := hs.untouched hst
  have hb : (xdpSysAt env (.lookupBlacklist ip.src) t).1 = isBlacklisted m.blacklist ip := by
    simp only [xdpSysAt, xdpSys, ht.blacklist]
    rfl
  have ht' : Mirrors mine m n (xdpSysAt env (.lookupBlacklist ip.src) t).2 :=
    mirrors_access hlru rfl ht
  refine ⟨untouched_access hlru (by simp [XdpCall.flowWritten]) t, ?_⟩
  rw [hb]
  cases hbl : isBlacklisted m.blacklist ip with
  | true =>
    have hnone : acceptedPacket m.blacklist (.ipv4 ip) = none := by simp [acceptedPacket, hbl]
    refine accounts_bind (fun _ => Mirrors mine m n) (accounts_incCount hlru _ ht') fun _ u hu => ?_
    refine accounts_bind (fun _ => Mirrors mine m n) (accounts_emitEvent hlru f ip 1 true hu) ?_
    exact fun _ v hv w hw => ⟨n, le_rfl, (hv.untouched hw).runView_of_none hnone⟩
  | false =>
    have hsome : acceptedPacket m.blacklist (.ipv4 ip) = some ip := by simp [acceptedPacket, hbl]
    refine accounts_bind (fun _ => Mirrors mine m n) (accounts_incCount hlru _ ht') fun _ u hu => ?_
    refine accounts_bind _ (accounts_accountFlow hlru (hf hbl) _ hu) ?_
    rintro isNew v ⟨n', hn, hv⟩
    refine accounts_bind _ (accounts_emitEvent hlru f ip 0 isNew hv) fun _ w hw x hx => ?_
    refine ⟨n', hn, (hw.untouched hx).congr (runView_blacklist ..) ?_⟩
    rw [runView_flowState, hsome]

/-- A packet is accounted as at some moment during its processing. -/
theorem accounts_frame {m : Maps} {f : Frame}
    (hf : ∀ key, flowOf m.blacklist f = some key → mine key) {n : ℕ} {s : ℕ × Maps}
    (hs : Mirrors mine m n s) :
    Accounts env mine (fun _ t => ∃ n', n ≤ n' ∧
      Mirrors mine (runView cfg (env n') f m (frameView f)).2 n' t)
      (Calls.xdpKwatchProg cfg f) s := by
  rw [Calls.xdpKwatchProg_eq]
  cases hv : frameView f with
  | ignored => exact fun t ht => ⟨n, le_rfl, (hs.untouched ht).runView_of_none rfl⟩
  | sentinel k =>
    refine accounts_bind (fun _ => Mirrors mine m n) (accounts_incCount hlru k hs) fun _ t ht => ?_
    exact fun u hu => ⟨n, le_rfl, (ht.untouched hu).runView_of_none rfl⟩
  | ipv4 ip =>
    refine accounts_ipv4Packet hlru (fun hb => hf _ ?_) hs
    simp [flowOf, hv, acceptedPacket, hb]

variable (cfg) in
/-- All packets of a processor, each as at a moment that is not before the one of the packet
before it. -/
theorem accounts_frames {fs : List Frame} {m : Maps}
    (hf : ∀ f ∈ fs, ∀ key, flowOf m.blacklist f = some key → mine key) {n : ℕ} {s : ℕ × Maps}
    (hs : Mirrors mine m n s) :
    Accounts env mine (fun _ t => ∃ log : List (ℕ × Frame), log.map Prod.snd = fs ∧
      log.Pairwise (fun x y => x.1 ≤ y.1) ∧ (∀ x ∈ log, n ≤ x.1) ∧ ∃ n₁ m', n ≤ n₁ ∧
        (∀ x ∈ log, x.1 ≤ n₁) ∧ xdpRun cfg m (log.map (arrivalAt env m.blacklist)) = some m' ∧
        Mirrors mine m' n₁ t)
      (processFrames cfg fs) s := by
  induction fs generalizing m n s with
  | nil =>
    exact fun t ht => ⟨[], rfl, .nil, by simp, n, m, le_rfl, by simp, rfl, hs.untouched ht⟩
  | cons f fs ih =>
    refine accounts_bind _ (accounts_frame hlru (hf f (by simp)) hs) ?_
    rintro _ t ⟨n', hn, ht⟩
    set m₁ := (runView cfg (env n') f m (frameView f)).2 with hm₁
    have hb : m₁.blacklist = m.blacklist := runView_blacklist ..
    have hfs : ∀ f ∈ fs, ∀ key, flowOf m₁.blacklist f = some key → mine key := by
      rw [hb]
      exact fun f hmem => hf f (List.mem_cons_of_mem _ hmem)
    refine (ih hfs ht).mono ?_
    rintro _ u ⟨log, hlog, hle, hstart, n₁, m', hn₁, hend, hrun, hu⟩
    refine ⟨(n', f) :: log, by simp [hlog], List.pairwise_cons.mpr ⟨hstart, hle⟩, ?_, n₁, m',
      hn.trans hn₁, ?_, ?_, hu⟩
    · exact List.forall_mem_cons.mpr ⟨hn, fun x hx => hn.trans (hstart x hx)⟩
    · exact List.forall_mem_cons.mpr ⟨hn₁, hend⟩
    · rw [List.map_cons, xdpRun_cons]
      rw [hb] at hrun
      exact hrun

end Processor

/-! ### All processors -/

section Parallel

variable {ι : Type} [DecidableEq ι] {env : ℕ → Helpers} {cfg : KwatchRuntimeConfig}
  {frames : ι → List Frame} {m : Maps} {owner : KwatchFlowKey → ι} {sched : List ι}
  {c' : Config ι XdpCall XdpCall.Result (ℕ × Maps) Unit}

/-- All packets of a flow are handled by its processor. -/
def Affine (owner : KwatchFlowKey → ι) (b : LpmTrie) (frames : ι → List Frame) : Prop :=
  ∀ i, ∀ f ∈ frames i, ∀ key, flowOf b f = some key → owner key = i

theorem accesses_exec {c : Config ι XdpCall XdpCall.Result (ℕ × Maps) Unit}
    (hrun : Run.exec (Config.step (xdpSysAt env)) c sched = some c') :
    c'.shared.1 = c.shared.1 + sched.length := by
  induction sched generalizing c with
  | nil => cases hrun; rfl
  | cons i sched ih =>
    rw [Run.exec_cons, Option.bind_eq_some_iff] at hrun
    obtain ⟨c₁, h₁, hrun⟩ := hrun
    rw [ih hrun, List.length_cons]
    simp only [Config.step] at h₁
    cases hp : c.progs i with
    | ret a => simp [hp] at h₁
    | call op k =>
      simp only [hp, Option.some.injEq] at h₁
      subst h₁
      simp only [xdpSysAt]
      omega

/-- Each processor has accounted its packets one after another, as far as its flows go. -/
theorem log_of_affine (hlru : ∀ n, (env n).lruVictims = []) (haff : Affine owner m.blacklist frames)
    (hrun : Run.exec (Config.step (xdpSysAt env)) (processInParallel cfg frames m) sched = some c')
    {i : ι} (hdone : c'.progs i = .ret ()) :
    ∃ log : List (ℕ × Frame), log.map Prod.snd = frames i ∧ log.Pairwise (fun x y => x.1 ≤ y.1) ∧
      (∀ x ∈ log, x.1 ≤ sched.length) ∧ ∃ m',
        xdpRun cfg m (log.map (arrivalAt env m.blacklist)) = some m' ∧
        ∀ key, owner key = i → c'.shared.2.flowState.get? key = m'.flowState.get? key := by
  have hstart (i : ι) := accounts_frames cfg hlru (haff i) (s := (0, m))
    ⟨le_rfl, rfl, fun _ _ => rfl⟩
  have hend := outlines_of_exec (fun _ => Untouched.refl) (fun _ _ _ _ => Untouched.trans)
    (fun i j hij s t h => h.mono fun key (hj : owner key = j) hi => hij (hi.symm.trans hj)) hstart
    (meets_any _ _ _) hrun i
  rw [hdone] at hend
  obtain ⟨log, hlog, hle, -, n₁, m', -, hlast, hm', hu⟩ := hend.returned Untouched.refl
  have hclock : n₁ ≤ sched.length := by
    have hcount := accesses_exec hrun
    simp only [processInParallel, Nat.zero_add] at hcount
    exact hcount ▸ hu.clock
  exact ⟨log, hlog, hle, fun x hx => (hlast x hx).trans hclock, m', hm', hu.flows⟩

/-! ### One order of all packets -/

/-- The entry of a flow after a packet. -/
def accountEntry (cfg : KwatchRuntimeConfig) (now : UInt64) (flags : UInt8) :
    Option KwatchFlowStats → KwatchFlowStats
  | none => newFlowStats now flags
  | some stats => updateFlowStats cfg now flags stats

theorem get?_accountFlow {h : Helpers} (hlru : h.lruVictims = []) (key key' : KwatchFlowKey)
    (flags : UInt8) (flows : Table KwatchFlowKey KwatchFlowStats) :
    (accountFlow cfg h key flags flows).1.get? key' =
      if key' = key then some (accountEntry cfg h.nowNs flags (flows.get? key))
      else flows.get? key' := by
  unfold accountFlow
  cases hs : flows.get? key <;> simp [hlru, Table.get?_set, accountEntry]

/-- What a packet does to a flow depends on the entry of that flow alone. -/
theorem get?_runView_congr {h : Helpers} (hlru : h.lruVictims = []) {f : Frame} {v : FrameView}
    (m m₁ : Maps) (hb : m₁.blacklist = m.blacklist) {key : KwatchFlowKey}
    (hkey : m₁.flowState.get? key = m.flowState.get? key) :
    (runView cfg h f m₁ v).2.flowState.get? key = (runView cfg h f m v).2.flowState.get? key := by
  rw [runView_flowState, runView_flowState, hb]
  cases acceptedPacket m.blacklist v with
  | none => exact hkey
  | some ip =>
    simp only [get?_accountFlow hlru]
    split
    · next he => rw [← he, hkey]
    · exact hkey

omit [DecidableEq ι] in
/-- A packet leaves the flows of the other processors alone. -/
theorem get?_runView_of_owner {h : Helpers} (hlru : h.lruVictims = []) {f : Frame} {i j : ι}
    (hf : ∀ key, flowOf m.blacklist f = some key → owner key = i) {key : KwatchFlowKey}
    (hkey : owner key = j) (hij : i ≠ j) :
    (runView cfg h f m (frameView f)).2.flowState.get? key = m.flowState.get? key := by
  rw [runView_flowState]
  cases hv : acceptedPacket m.blacklist (frameView f) with
  | none => rfl
  | some ip =>
    have hown : owner (keyOf f ip) = i := hf _ (by simp [flowOf, hv])
    have hne : key ≠ keyOf f ip := fun he => hij (hown.symm.trans (he ▸ hkey))
    simp only [get?_accountFlow hlru, if_neg hne]

variable (cfg) in
/-- The flows of a processor after packets of all processors are those after its own. -/
theorem xdpRun_filter (hlru : ∀ n, (env n).lruVictims = []) {b : LpmTrie} {i : ι}
    {order : List (ι × ℕ × Frame)}
    (haff : ∀ x ∈ order, ∀ key, flowOf b x.2.2 = some key → owner key = x.1) {m m₁ : Maps}
    (hb : m.blacklist = b) (hb₁ : m₁.blacklist = b)
    (hflows : ∀ key, owner key = i → m₁.flowState.get? key = m.flowState.get? key) :
    ∃ m' m₁', xdpRun cfg m (order.map fun x => arrivalAt env b x.2) = some m' ∧
      xdpRun cfg m₁ ((order.filter fun x => x.1 = i).map fun x => arrivalAt env b x.2) = some m₁' ∧
      ∀ key, owner key = i → m₁'.flowState.get? key = m'.flowState.get? key := by
  induction order generalizing m m₁ with
  | nil => exact ⟨m, m₁, rfl, rfl, hflows⟩
  | cons x order ih =>
    obtain ⟨j, n, f⟩ := x
    obtain ⟨hf, haff⟩ := List.forall_mem_cons.mp haff
    set m₂ := (runView cfg (env n) f { m with blacklist := b } (frameView f)).2 with hm₂
    have hb₂ : m₂.blacklist = b := runView_blacklist ..
    by_cases hji : j = i
    · subst hji
      set m₃ := (runView cfg (env n) f { m₁ with blacklist := b } (frameView f)).2 with hm₃
      have hflows' : ∀ key, owner key = j → m₃.flowState.get? key = m₂.flowState.get? key :=
        fun key hk => get?_runView_congr (hlru n) { m with blacklist := b }
          { m₁ with blacklist := b } rfl (hflows key hk)
      obtain ⟨m', m₁', hm', hm₁', hend⟩ := ih haff hb₂ (runView_blacklist ..) hflows'
      refine ⟨m', m₁', ?_, ?_, hend⟩
      · rw [List.map_cons, xdpRun_cons]
        exact hm'
      · rw [List.filter_cons_of_pos (by simp), List.map_cons, xdpRun_cons]
        exact hm₁'
    · have hflows' : ∀ key, owner key = i → m₁.flowState.get? key = m₂.flowState.get? key :=
        fun key hk => (hflows key hk).trans
          (get?_runView_of_owner (m := { m with blacklist := b }) (hlru n) hf hk hji).symm
      obtain ⟨m', m₁', hm', hm₁', hend⟩ := ih haff hb₂ hb₁ hflows'
      refine ⟨m', m₁', ?_, ?_, hend⟩
      · rw [List.map_cons, xdpRun_cons]
        exact hm'
      · rw [List.filter_cons_of_neg (by simpa using hji)]
        exact hm₁'

/-- An order of the packets of all processors in which one processor alone would leave the same
flows. -/
structure Linearizes (cfg : KwatchRuntimeConfig) (env : ℕ → Helpers) (m : Maps)
    (frames : ι → List Frame) (n : ℕ) (flows : Table KwatchFlowKey KwatchFlowStats)
    (order : List (ι × ℕ × Frame)) : Prop where
  sorted : order.Pairwise fun x y => x.2.1 ≤ y.2.1
  moments : ∀ x ∈ order, x.2.1 ≤ n
  frames : ∀ i, (order.filter fun x => x.1 = i).map (fun x => x.2.2) = frames i
  alone : ∃ m', xdpRun cfg m (order.map fun x => arrivalAt env m.blacklist x.2) = some m' ∧
    ∀ key, flows.get? key = m'.flowState.get? key

theorem exists_linearizes [Fintype ι] (hlru : ∀ n, (env n).lruVictims = [])
    (haff : Affine owner m.blacklist frames)
    (hrun : Run.exec (Config.step (xdpSysAt env)) (processInParallel cfg frames m) sched = some c')
    (hdone : ∀ i, c'.progs i = .ret ()) :
    ∃ order, Linearizes cfg env m frames sched.length c'.shared.2.flowState order := by
  choose log hlog hle hclock m₁ hm₁ hflows using
    fun i => log_of_affine hlru haff hrun (hdone i)
  obtain ⟨order, hsorted, hfilter⟩ := Timeline.exists_merge (fun x : ℕ × Frame => x.1) log hle
  have hmem : ∀ x ∈ order, x.2 ∈ log x.1 := by
    intro x hx
    rw [← hfilter x.1]
    exact List.mem_map.mpr ⟨x, List.mem_filter.mpr ⟨hx, by simp⟩, rfl⟩
  have haff' : ∀ x ∈ order, ∀ key, flowOf m.blacklist x.2.2 = some key → owner key = x.1 := by
    intro x hx
    apply haff x.1
    rw [← hlog x.1]
    exact List.mem_map.mpr ⟨x.2, hmem x hx, rfl⟩
  refine ⟨order, hsorted, fun x hx => hclock _ _ (hmem x hx), fun i => ?_, ?_⟩
  · rw [← hlog i, ← hfilter i, List.map_map]
    rfl
  · obtain ⟨m', hm', -⟩ := xdpRun_pktCounts cfg m (order.map fun x => arrivalAt env m.blacklist x.2)
    refine ⟨m', hm', fun key => ?_⟩
    obtain ⟨m₂, m₃, hm₂, hm₃, hkeys⟩ :=
      xdpRun_filter cfg (i := owner key) hlru haff' rfl rfl (fun _ _ => rfl)
    have hown : ((order.filter fun x => x.1 = owner key).map fun x =>
        arrivalAt env m.blacklist x.2) = (log (owner key)).map (arrivalAt env m.blacklist) := by
      rw [← hfilter (owner key), List.map_map]
      rfl
    obtain rfl : m₂ = m' := Option.some.inj (hm₂.symm.trans hm')
    rw [hown] at hm₃
    obtain rfl : m₃ = m₁ (owner key) := Option.some.inj (hm₃.symm.trans (hm₁ (owner key)))
    rw [hflows (owner key) key rfl, hkeys key rfl]

/-- The flows after a run are those of one sequential run over all packets in the order of their
moments, which keeps the order of every processor. -/
theorem flows_linearize [Fintype ι] (hlru : ∀ n, (env n).lruVictims = [])
    (haff : Affine owner m.blacklist frames)
    (hrun : Run.exec (Config.step (xdpSysAt env)) (processInParallel cfg frames m) sched = some c')
    (hdone : ∀ i, c'.progs i = .ret ()) :
    ∃ order : List (ι × ℕ × Frame), order.Pairwise (fun x y => x.2.1 ≤ y.2.1) ∧
      (∀ x ∈ order, x.2.1 ≤ sched.length) ∧
      (∀ i, (order.filter fun x => x.1 = i).map (fun x => x.2.2) = frames i) ∧
      ∃ m', xdpRun cfg m (order.map fun x => arrivalAt env m.blacklist x.2) = some m' ∧
        ∀ key, c'.shared.2.flowState.get? key = m'.flowState.get? key := by
  obtain ⟨order, h⟩ := exists_linearizes hlru haff hrun hdone
  exact ⟨order, h.sorted, h.moments, h.frames, h.alone⟩

end Parallel

/-! ### Two processors -/

def steadyHelpers : ℕ → Helpers := fun n => ⟨UInt64.ofNat (n + 1), 0, 0, false, []⟩

/-- SYN packets of one flow for the first processor and a packet of another one for the second. -/
def separateFlows : Fin 2 → List Frame := ![[lateSyn.encode, lateSyn.encode], [bareIpv4 17]]

/-- The first of two processors if a condition holds. -/
def firstIf (c : Bool) : Fin 2 := if c then 0 else 1

def protocolOwner (key : KwatchFlowKey) : Fin 2 := firstIf (key.protocol = IPPROTO_TCP)

theorem affine_separateFlows : Affine protocolOwner .empty separateFlows := by
  have hsyn : flowOf .empty lateSyn.encode = some restartKey := by decide +kernel
  have hudp : (flowOf .empty (bareIpv4 17)).map protocolOwner = some 1 := by decide +kernel
  refine Fin.forall_fin_two.mpr ⟨?_, ?_⟩
  · simp only [separateFlows, Matrix.cons_val_zero, List.mem_cons, List.not_mem_nil, or_false,
      or_self, forall_eq, hsyn, Option.some.injEq]
    rintro _ rfl
    rfl
  · intro f hf key hkey
    obtain rfl := List.mem_singleton.mp (show f ∈ [bareIpv4 17] from hf)
    rw [hkey] at hudp
    exact Option.some.inj hudp

/-- The processors take turns. -/
theorem flows_linearize_two : ∃ c' sched,
    Run.exec (Config.step (xdpSysAt steadyHelpers))
      (processInParallel ⟨1, 100⟩ separateFlows .empty) sched = some c' ∧
    ∃ order : List (Fin 2 × ℕ × Frame), order.Pairwise (fun x y => x.2.1 ≤ y.2.1) ∧
      (∀ x ∈ order, x.2.1 ≤ sched.length) ∧
      (∀ i, (order.filter fun x => x.1 = i).map (fun x => x.2.2) = separateFlows i) ∧
      ∃ m', xdpRun ⟨1, 100⟩ .empty (order.map fun x => arrivalAt steadyHelpers .empty x.2) = some m' ∧
        ∀ key, c'.shared.2.flowState.get? key = m'.flowState.get? key := by
  refine ⟨_, (List.replicate 10 [0, 1]).flatten ++ List.replicate 11 0, rfl, ?_⟩
  exact flows_linearize (fun _ => rfl) affine_separateFlows rfl
    (Fin.forall_fin_two.mpr ⟨rfl, rfl⟩)

/-- Two processors that both take the first packet of a flow for new count one SYN of two. -/
theorem shared_flow_loses_syn : ∃ c',
    Run.exec (Config.step (xdpSysAt steadyHelpers))
      (processInParallel ⟨1, 100⟩ (fun _ : Fin 2 => [lateSyn.encode]) .empty)
      (List.replicate 10 [0, 1]).flatten = some c' ∧ (∀ i, c'.progs i = .ret ()) ∧
      (c'.shared.2.flowState.get? restartKey).map KwatchFlowStats.synCount = some 1 := by
  refine ⟨_, rfl, Fin.forall_fin_two.mpr ⟨rfl, rfl⟩, ?_⟩
  decide +kernel

end KWatch
