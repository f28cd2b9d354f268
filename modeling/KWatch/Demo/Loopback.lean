import KWatch.Tui.Input

/-! # Demo traffic stays on loopback

Both entry points end in a scenario that checks the text of its target and later converts the
same text again. The two conversions agree, so a scenario that gets as far as its socket sends to
the address that was checked, and without the override that address is in `127.0.0.0/8`.
-/

namespace KWatch

open Prog

/-- The addresses `127.b.c.d`. -/
def InLoopback (addr : UInt32) : Prop := ∃ b c d : UInt8, addrBytes addr = [127, b, c, d]

/-- The calls that send nowhere else. -/
def SendsTo (addr : UInt32) : DemoCall → Prop
  | .sendto dest _ => dest.addr = addr
  | _ => True

/-- Either no call is made, so no socket, or all packets go to one loopback address. -/
def StaysLocal {α : Type} (p : DemoProg α) : Prop :=
  (∃ a, p = .ret a) ∨ ∃ addr, InLoopback addr ∧ Uses (SendsTo addr) p

/-! ### The check of the target -/

theorem mask_eq_iff {n : ℕ} (h : n < 2 ^ 32) :
    n &&& 0xff000000 = 0x7f000000 ↔ n / 16777216 = 127 := by
  have hdiv : (n &&& 0xff000000) / 2 ^ 24 = n / 2 ^ 24 := by
    rw [Nat.and_div_two_pow]
    have hq : n / 2 ^ 24 < 2 ^ 8 := by omega
    exact (Nat.and_two_pow_sub_one_eq_mod (n / 2 ^ 24) 8).trans (Nat.mod_eq_of_lt hq)
  have hmod : (n &&& 0xff000000) % 2 ^ 24 = 0 := by
    rw [Nat.and_mod_two_pow]
    exact Nat.and_zero _
  omega

theorem isIpv4Loopback_iff (addr : UInt32) : isIpv4Loopback addr = true ↔ InLoopback addr := by
  have hlt := be32ToCpu_lt addr
  rw [isIpv4Loopback, beq_iff_eq, ← UInt32.toNat_inj, UInt32.toNat_and, UInt32.toNat_ofNat',
    Nat.mod_eq_of_lt hlt]
  apply (mask_eq_iff hlt).trans
  have hfirst : be32ToCpu addr / 16777216 = (UInt8.ofNat (addr.toNat % 256)).toNat := by
    have h := addr.toNat_lt
    have h₀ : addr.toNat % 256 < 256 := Nat.mod_lt _ (by decide)
    have h₁ : addr.toNat / 256 % 256 < 256 := Nat.mod_lt _ (by decide)
    have h₂ : addr.toNat / 65536 % 256 < 256 := Nat.mod_lt _ (by decide)
    have h₃ : addr.toNat / 16777216 < 256 := by omega
    simp only [be32ToCpu, UInt8.toNat_ofNat']
    generalize addr.toNat % 256 = b₀, addr.toNat / 256 % 256 = b₁,
      addr.toNat / 65536 % 256 = b₂, addr.toNat / 16777216 = b₃ at h₀ h₁ h₂ h₃ ⊢
    omega
  rw [hfirst]
  constructor
  · intro h127
    have hb : UInt8.ofNat (addr.toNat % 256) = 127 := UInt8.toNat_inj.mp h127
    exact ⟨_, _, _, by rw [addrBytes, hb]⟩
  · rintro ⟨b, c, d, h⟩
    rw [addrBytes, List.cons.injEq] at h
    rw [h.1]
    rfl

theorem validateTarget_eq_ok_iff (ip : Text) (overrideSafety : Bool) :
    validateTarget ip overrideSafety = .ok () ↔ ∃ addr,
      Ipv4.inetPton (Ipv4.cStr ip) = some addr ∧ (overrideSafety = true ∨ InLoopback addr) := by
  unfold validateTarget
  cases hp : Ipv4.inetPton (Ipv4.cStr ip) with
  | none => simp
  | some addr =>
    simp only [Option.some.injEq, exists_eq_left', ← isIpv4Loopback_iff]
    cases overrideSafety <;> cases isIpv4Loopback addr <;> simp

/-! ### The scenarios -/

theorem uses_floodLoop (cfg : DemoConfig) (dest : SockaddrIn) (packet : UInt16 → List UInt8)
    (next : UInt16 → UInt16) (checkSend : Bool) (rounds : ℕ) (seq : UInt16) :
    Uses (SendsTo dest.addr) (floodLoop cfg dest packet next checkSend rounds seq) := by
  induction rounds generalizing seq with
  | zero => exact uses_ret _
  | succ rounds ih =>
    simp only [floodLoop, step_bind, uses_call]
    refine ⟨trivial, fun elapsed => ?_⟩
    split
    · exact uses_ret _
    · refine ⟨rfl, fun sent => ?_⟩
      dsimp only
      split
      · exact uses_ret _
      · exact ⟨trivial, fun _ => ih (next seq)⟩

theorem uses_flood (cfg : DemoConfig) (dest : SockaddrIn) (packet : UInt16 → List UInt8)
    (next : UInt16 → UInt16) (checkSend : Bool) (rounds : ℕ) (seq : UInt16) :
    Uses (SendsTo dest.addr) (flood cfg dest packet next checkSend rounds seq) := by
  unfold flood
  split
  · exact uses_ret _
  · exact uses_floodLoop cfg dest packet next checkSend rounds seq

/-- A scenario ends at its check, or sends to the address that passed it. -/
theorem launchDemo_cases (stack : Stack) (rounds : ℕ) (name : DemoName) (cfg : DemoConfig) :
    (∃ a, launchDemo stack rounds name cfg = .ret a) ∨
      ∃ addr, (cfg.overrideSafety = true ∨ InLoopback addr) ∧
        Uses (SendsTo addr) (launchDemo stack rounds name cfg) := by
  cases hv : validateTarget cfg.targetIp cfg.overrideSafety with
  | error err =>
    refine .inl ⟨.returned (.error err), ?_⟩
    cases name <;> simp [launchDemo, runSynFlood, runPingFlood, runUdpStorm, hv]
  | ok u =>
    obtain ⟨addr, hpton, hok⟩ := (validateTarget_eq_ok_iff _ _).mp hv
    have hdest : destAddr stack cfg = addr := by rw [destAddr, hpton, Option.getD_some]
    refine .inr ⟨addr, hok, ?_⟩
    subst hdest
    cases name with
    | synFlood =>
      simp only [launchDemo, runSynFlood, hv, step_bind, uses_call]
      refine ⟨trivial, fun failure => ?_⟩
      split
      · exact uses_ret _
      · exact uses_ret _
      · refine ⟨trivial, fun failure' => ?_⟩
        dsimp only
        split
        · exact uses_ret _
        · exact uses_ret _
        · exact uses_flood cfg ⟨destAddr stack cfg, _⟩ _ _ _ _ _
    | pingFlood =>
      simp only [launchDemo, runPingFlood, hv, step_bind, uses_call]
      refine ⟨trivial, fun failure => ?_⟩
      split
      · exact uses_ret _
      · exact uses_ret _
      · exact uses_flood cfg ⟨destAddr stack cfg, _⟩ _ _ _ _ _
    | udpStorm =>
      simp only [launchDemo, runUdpStorm, hv, step_bind, uses_call]
      refine ⟨trivial, fun failure => ?_⟩
      split
      · exact uses_ret _
      · exact uses_flood cfg ⟨destAddr stack cfg, _⟩ _ _ _ _ _

theorem launchDemo_staysLocal (stack : Stack) (rounds : ℕ) (name : DemoName) {cfg : DemoConfig}
    (h : cfg.overrideSafety = false) : StaysLocal (launchDemo stack rounds name cfg) := by
  apply (launchDemo_cases stack rounds name cfg).imp_right
  rintro ⟨addr, hok, huses⟩
  exact ⟨addr, hok.resolve_left (by simp [h]), huses⟩

/-! ### Words in option position -/

def takesArgument (opt : Text) : Bool :=
  opt ∈ ["--target".toList, "--port".toList, "--duration".toList, "--rate".toList]

/-- The words that stand where an option is read, not where its argument is. -/
def optionWords : List Text → List Text
  | [] => []
  | [opt] => [opt]
  | opt :: value :: rest =>
    opt :: if takesArgument opt then optionWords rest else optionWords (value :: rest)

theorem exists_of_map_eq_ok {ε α β : Type} {f : α → β} {x : Except ε α} {b : β}
    (h : x.map f = .ok b) : ∃ a, f a = b := by
  cases x with
  | error err => cases h
  | ok a => exact ⟨a, Except.ok.inj h⟩

theorem optionWithArgument_eq_none_iff (opt : Text) (cfg : DemoConfig) :
    optionWithArgument opt cfg = none ↔ takesArgument opt = false := by
  simp only [optionWithArgument, takesArgument, decide_eq_false_iff_not, List.mem_cons,
    List.not_mem_nil, or_false, not_or]
  split_ifs <;> simp_all

theorem takesArgument_of_some {opt : Text} {cfg : DemoConfig}
    {parse : Text → Except Text DemoConfig} (h : optionWithArgument opt cfg = some parse) :
    takesArgument opt = true := by
  rw [← Bool.not_eq_false, ← optionWithArgument_eq_none_iff opt cfg, h]
  simp

theorem optionWords_cons_of_none {opt : Text} {cfg : DemoConfig}
    (h : optionWithArgument opt cfg = none) (rest : List Text) :
    optionWords (opt :: rest) = opt :: optionWords rest := by
  have harg : takesArgument opt = false := (optionWithArgument_eq_none_iff opt cfg).mp h
  cases rest with
  | nil => rfl
  | cons value rest => simp [optionWords, harg]

theorem parseTargetOption_overrideSafety {value : Text} {cfg cfg' : DemoConfig}
    (h : parseTargetOption value cfg = .ok cfg') : cfg'.overrideSafety = cfg.overrideSafety := by
  unfold parseTargetOption at h
  split at h
  · cases h; rfl
  · dsimp only at h
    split at h
    · cases h
    · split at h
      · cases h
      · cases h; rfl

/-- Only the flag itself turns the safety off. -/
theorem optionWithArgument_overrideSafety {opt value : Text} {cfg cfg' : DemoConfig}
    {parse : Text → Except Text DemoConfig} (hopt : optionWithArgument opt cfg = some parse)
    (h : parse value = .ok cfg') : cfg'.overrideSafety = cfg.overrideSafety := by
  unfold optionWithArgument at hopt
  split_ifs at hopt
  · cases hopt
    exact parseTargetOption_overrideSafety h
  · cases hopt
    obtain ⟨_, rfl⟩ := exists_of_map_eq_ok h
    rfl
  · cases hopt
    obtain ⟨_, rfl⟩ := exists_of_map_eq_ok h
    rfl
  · cases hopt
    obtain ⟨_, rfl⟩ := exists_of_map_eq_ok h
    rfl

theorem parseDemoOptions_overrideSafety {cfg cfg' : DemoConfig} {args : List Text}
    (h : parseDemoOptions cfg args = .ok cfg') :
    cfg'.overrideSafety = true ↔
      cfg.overrideSafety = true ∨ overrideFlag ∈ optionWords args := by
  fun_induction parseDemoOptions cfg args with
  | case1 cfg => cases h; simp [optionWords]
  | case2 => cases h
  | case3 => cases h
  | case4 cfg opt parse value rest hopt cfg₁ hparse ih =>
    have harg := takesArgument_of_some hopt
    have hne : overrideFlag ≠ opt := by
      rintro rfl
      exact absurd harg (by decide)
    rw [ih h, optionWithArgument_overrideSafety hopt hparse]
    simp [optionWords, harg, hne]
  | case5 cfg rest hopt ih =>
    have hrest := ih h
    simp only [true_or, iff_true] at hrest
    simp [optionWords_cons_of_none hopt, hrest]
  | case6 => cases h

/-! ### The command -/

theorem demoScenario_eq_some {experimental : Bool} {stack : Stack} {rounds : ℕ} {scenario : Text}
    {run : DemoConfig → DemoRun} (h : demoScenario experimental stack rounds scenario = some run) :
    ∃ name, run = launchDemo stack rounds name := by
  unfold demoScenario at h
  split_ifs at h
  · exact ⟨.pingFlood, (Option.some.inj h).symm⟩
  · exact ⟨.udpStorm, (Option.some.inj h).symm⟩
  · exact ⟨.synFlood, (Option.some.inj h).symm⟩

theorem StaysLocal.bind {α β : Type} {p : DemoProg α} (h : StaysLocal p) (f : α → β) :
    StaysLocal (p >>= fun a => pure (f a)) := by
  rcases h with ⟨a, rfl⟩ | ⟨addr, hloop, huses⟩
  · exact .inl ⟨f a, rfl⟩
  · exact .inr ⟨addr, hloop, huses.bind fun a => uses_ret _⟩

theorem cmdDemo_staysLocal (experimental : Bool) (stack : Stack) (rounds : ℕ) {args : List Text}
    (h : overrideFlag ∉ optionWords args.tail) :
    StaysLocal (cmdDemo experimental stack rounds args) := by
  unfold cmdDemo
  split
  · exact .inl ⟨_, rfl⟩
  · next scenario options =>
    split
    · exact .inl ⟨_, rfl⟩
    · next cfg hcfg =>
      have hsafe : cfg.overrideSafety = false := by
        rw [← Bool.not_eq_true, parseDemoOptions_overrideSafety hcfg]
        rintro (hd | hflag)
        · cases hd
        · exact h hflag
      split
      · exact .inl ⟨_, rfl⟩
      · split
        · exact .inl ⟨_, rfl⟩
        · split
          · exact .inl ⟨_, rfl⟩
          · next run hrun =>
            obtain ⟨name, rfl⟩ := demoScenario_eq_some hrun
            exact (launchDemo_staysLocal stack rounds name hsafe).bind _

/-! ### The dashboard -/

/-- The demo settings keep the safety on, also those of a demo that is launched. -/
def KeepsSafety (r : App × AppAction) : Prop :=
  r.1.demoCfg.overrideSafety = false ∧
    ∀ name cfg, r.2 = .launchDemo name cfg → cfg.overrideSafety = false

theorem keepsSafety_none {a : App} (h : a.demoCfg.overrideSafety = false) :
    KeepsSafety (a, .none) :=
  ⟨h, fun _ _ hl => by cases hl⟩

theorem keepsSafety_launch {a : App} {cfg : DemoConfig} (h : a.demoCfg.overrideSafety = false)
    (hcfg : cfg.overrideSafety = false) (name : DemoName) :
    KeepsSafety (a, .launchDemo name cfg) :=
  ⟨h, fun _ _ hl => by cases hl; exact hcfg⟩

theorem demosInput_keepsSafety {a : App} (h : a.demoCfg.overrideSafety = false) (ch : Key)
    (answer : Option Text) : KeepsSafety (a.demosInput ch answer) := by
  unfold App.demosInput
  dsimp only
  split_ifs
  · exact keepsSafety_none h
  · exact keepsSafety_none h
  · split <;> exact keepsSafety_none h
  · split <;> exact keepsSafety_none h
  · split <;> exact keepsSafety_none h
  · exact keepsSafety_launch h h _
  · exact keepsSafety_launch h h _
  · exact keepsSafety_launch h h _
  · exact keepsSafety_none h

theorem firewallInput_keepsSafety {a : App} (h : a.demoCfg.overrideSafety = false)
    (rows : List FirewallRow) (ch : Key) (answer : Option Text) :
    KeepsSafety (a.firewallInput rows ch answer) := by
  have hedit : ∀ k, KeepsSafety (a, .mapUpdate k) ∧ KeepsSafety (a, .mapDelete k) :=
    fun k => ⟨⟨h, fun _ _ hl => by cases hl⟩, ⟨h, fun _ _ hl => by cases hl⟩⟩
  unfold App.firewallInput
  split_ifs
  · exact keepsSafety_none h
  · exact keepsSafety_none h
  · split
    · exact (hedit _).1
    · exact keepsSafety_none h
  · split
    · exact (hedit _).2
    · exact keepsSafety_none h
  · exact keepsSafety_none h

/-- What one key preserves. -/
theorem handleInput_keepsSafety {a : App} (h : a.demoCfg.overrideSafety = false)
    (rows : List FirewallRow) (ch : Key) (answer : Option Text) :
    KeepsSafety (a.handleInput rows ch answer) := by
  unfold App.handleInput
  split_ifs
  · exact keepsSafety_none h
  · exact keepsSafety_none h
  · exact keepsSafety_none h
  · exact keepsSafety_none h
  · exact keepsSafety_none h
  · split
    · exact firewallInput_keepsSafety h rows ch answer
    · exact demosInput_keepsSafety h ch answer
    · exact keepsSafety_none h

/-- No key sequence turns the safety off. -/
theorem play_keepsSafety (keys : List KeyPress) :
    (Session.play keys).app.demoCfg.overrideSafety = false ∧
      ∀ name cfg, .launchDemo name cfg ∈ (Session.play keys).actions →
        cfg.overrideSafety = false := by
  induction keys using List.reverseRecOn with
  | nil => exact ⟨rfl, by simp [Session.play, Session.start]⟩
  | append_singleton keys k ih =>
    obtain ⟨happ, hact⟩ := ih
    have hkeep := handleInput_keepsSafety happ k.rows k.ch k.answer
    rw [Session.play, List.foldl_append]
    refine ⟨hkeep.1, fun name cfg hm => ?_⟩
    rcases List.mem_append.mp hm with hm | hm
    · exact hact name cfg hm
    · exact hkeep.2 name cfg (List.mem_singleton.mp hm).symm

/-- A demo of the command without the override, and every demo of the dashboard, sends to one
loopback address or opens no socket. -/
theorem demo_stays_on_loopback (stack : Stack) (rounds : ℕ) :
    (∀ (experimental : Bool) (args : List Text),
      StaysLocal (cmdDemo experimental stack rounds args) ∨
        overrideFlag ∈ optionWords args.tail) ∧
    ∀ (keys : List KeyPress) (name : DemoName) (cfg : DemoConfig),
      .launchDemo name cfg ∈ (Session.play keys).actions →
        StaysLocal (launchDemo stack rounds name cfg) := by
  constructor
  · intro experimental args
    by_cases h : overrideFlag ∈ optionWords args.tail
    · exact .inr h
    · exact .inl (cmdDemo_staysLocal experimental stack rounds h)
  · intro keys name cfg hm
    exact launchDemo_staysLocal stack rounds name ((play_keepsSafety keys).2 name cfg hm)

/-- The settings survive a target typed at the prompt. -/
theorem demo_stays_on_loopback_typed : StaysLocal
    (launchDemo ⟨7, 0⟩ 3 .udpStorm ⟨"127.0.0.9".toList, 80, 50, 5, false⟩) :=
  (demo_stays_on_loopback ⟨7, 0⟩ 3).2
    [⟨[], .char '4', none⟩, ⟨[], .char 't', some "127.0.0.9".toList⟩, ⟨[], .char 'u', none⟩] _ _
    (by decide)

end KWatch
