import KWatch.Demo.Loopback

/-! # Rates and durations of demos

Every scenario divides by its rate. The command refuses a rate or a duration of 0, the prompts of
the dashboard take one, so a demo of the dashboard is safe as long as no such answer is given.
-/

namespace KWatch

open Prog

/-- A rate to divide by and a duration to send for. -/
structure DemoConfig.Positive (cfg : DemoConfig) : Prop where
  rate : 0 < cfg.ratePps.toNat
  duration : 0 < cfg.durationS.toNat

/-- Every demo that the keys launch on a target that passes the check can divide by its rate. -/
def LaunchesPositive (keys : List KeyPress) : Prop :=
  ∀ name cfg, .launchDemo name cfg ∈ (Session.play keys).actions →
    validateTarget cfg.targetIp cfg.overrideSafety = .ok () → cfg.Positive

/-- The keys that prompt for a rate or a duration. -/
def promptsForNumber (ch : Key) : Bool :=
  ch ∈ [.char 'r', .char 'R', .char 'd', .char 'D']

/-- The prompt for a rate or a duration is answered with a number that is 0. -/
def ZeroAnswer (a : App) (k : KeyPress) : Prop :=
  a.currentView = .demos ∧ promptsForNumber k.ch = true ∧
    App.parseU32Input (App.promptInput k.answer) = some 0

/-- No answer on the way is 0. -/
def NoZeroAnswer (keys : List KeyPress) : Prop :=
  ∀ past k, past ++ [k] <+: keys → ¬ ZeroAnswer (Session.play past).app k

variable {a : App} {cfg : DemoConfig} {keys : List KeyPress} {k : KeyPress}

theorem toNat_pos_of_not_zero {n : UInt32} (h : n ≠ 0) : 0 < n.toNat :=
  Nat.pos_of_ne_zero fun h0 => h (UInt32.toNat_inj.mp h0)

theorem play_append (keys : List KeyPress) (k : KeyPress) :
    Session.play (keys ++ [k]) = (Session.play keys).press k := by
  rw [Session.play, List.foldl_append]
  rfl

/-! ### The command -/

/-- The command starts a scenario only with a rate and a duration. -/
theorem cmdDemo_positive (experimental : Bool) (stack : Stack) (rounds : ℕ) (args : List Text) :
    cmdDemo experimental stack rounds args = pure (.returned 64) ∨
      ∃ name cfg, cfg.Positive ∧ validateTarget cfg.targetIp cfg.overrideSafety = .ok () ∧
        cmdDemo experimental stack rounds args =
          launchDemo stack rounds name cfg >>= fun result => pure (result.map demoExitCode) := by
  unfold cmdDemo
  split
  · exact Or.inl rfl
  · split
    · exact Or.inl rfl
    · rename_i cfg _
      split
      · exact Or.inl rfl
      · rename_i hzero
        rw [not_or] at hzero
        split
        · exact Or.inl rfl
        · rename_i hvalid
          split
          · exact Or.inl rfl
          · rename_i run hrun
            obtain ⟨name, rfl⟩ := demoScenario_eq_some hrun
            exact Or.inr ⟨name, cfg, ⟨toNat_pos_of_not_zero hzero.1,
              toNat_pos_of_not_zero hzero.2⟩, hvalid, rfl⟩

/-! ### The dashboard -/

/-- The settings are positive, also those of a demo that is launched. -/
def KeepsPositive (r : App × AppAction) : Prop :=
  r.1.demoCfg.Positive ∧ ∀ name cfg, r.2 = .launchDemo name cfg → cfg.Positive

theorem keepsPositive_none (h : a.demoCfg.Positive) : KeepsPositive (a, .none) :=
  ⟨h, fun _ _ hl => by cases hl⟩

theorem keepsPositive_launch (h : a.demoCfg.Positive) (hcfg : cfg.Positive) (name : DemoName) :
    KeepsPositive (a, .launchDemo name cfg) :=
  ⟨h, fun _ _ hl => by cases hl; exact hcfg⟩

theorem demosInput_keepsPositive (h : a.demoCfg.Positive) (hview : a.currentView = .demos)
    (hk : ¬ ZeroAnswer a k) : KeepsPositive (a.demosInput k.ch k.answer) := by
  have hanswer : ∀ n, App.parseU32Input (App.promptInput k.answer) = some n →
      promptsForNumber k.ch = true → 0 < n.toNat := by
    rintro n hn hprompt
    apply toNat_pos_of_not_zero
    rintro rfl
    exact hk ⟨hview, hprompt, hn⟩
  unfold App.demosInput
  dsimp only
  split_ifs with ht hnil ho hr hd
  · exact keepsPositive_none h
  · exact keepsPositive_none ⟨h.rate, h.duration⟩
  · split
    · exact keepsPositive_none ⟨h.rate, h.duration⟩
    · exact keepsPositive_none h
  · split
    · rename_i rate hrate
      have hprompt : promptsForNumber k.ch = true := by
        rcases hr with hr | hr <;> rw [hr] <;> rfl
      exact keepsPositive_none ⟨hanswer rate hrate hprompt, h.duration⟩
    · exact keepsPositive_none h
  · split
    · rename_i duration hduration
      have hprompt : promptsForNumber k.ch = true := by
        rcases hd with hd | hd <;> rw [hd] <;> rfl
      exact keepsPositive_none ⟨h.rate, hanswer duration hduration hprompt⟩
    · exact keepsPositive_none h
  · exact keepsPositive_launch h h _
  · exact keepsPositive_launch h h _
  · exact keepsPositive_launch h h _
  · exact keepsPositive_none h

theorem firewallInput_keepsPositive (h : a.demoCfg.Positive) (rows : List FirewallRow) (ch : Key)
    (answer : Option Text) : KeepsPositive (a.firewallInput rows ch answer) := by
  unfold App.firewallInput
  split_ifs
  · exact keepsPositive_none h
  · exact keepsPositive_none h
  · split
    · exact ⟨h, fun _ _ hl => by cases hl⟩
    · exact keepsPositive_none h
  · split
    · exact ⟨h, fun _ _ hl => by cases hl⟩
    · exact keepsPositive_none h
  · exact keepsPositive_none h

/-- What one key preserves. -/
theorem handleInput_keepsPositive (h : a.demoCfg.Positive) (hk : ¬ ZeroAnswer a k) :
    KeepsPositive (a.handleInput k.rows k.ch k.answer) := by
  unfold App.handleInput
  split_ifs
  · exact keepsPositive_none h
  · exact keepsPositive_none h
  · exact keepsPositive_none h
  · exact keepsPositive_none h
  · exact keepsPositive_none h
  · split
    · exact firewallInput_keepsPositive h k.rows k.ch k.answer
    · rename_i hview
      exact demosInput_keepsPositive h hview hk
    · exact keepsPositive_none h

theorem NoZeroAnswer.init (h : NoZeroAnswer (keys ++ [k])) : NoZeroAnswer keys :=
  fun past k' hpre => h past k' (hpre.trans (List.prefix_append keys [k]))

/-- Without an answer of 0 every demo that is launched is positive. -/
theorem play_positive (h : NoZeroAnswer keys) :
    (Session.play keys).app.demoCfg.Positive ∧
      ∀ name cfg, .launchDemo name cfg ∈ (Session.play keys).actions → cfg.Positive := by
  induction keys using List.reverseRecOn with
  | nil => exact ⟨⟨by decide, by decide⟩, nofun⟩
  | append_singleton keys k ih =>
    obtain ⟨happ, hact⟩ := ih h.init
    have hkeep := handleInput_keepsPositive happ (h keys k List.prefix_rfl)
    rw [play_append]
    refine ⟨hkeep.1, fun name cfg hm => ?_⟩
    rcases List.mem_append.mp hm with hm | hm
    · exact hact name cfg hm
    · exact hkeep.2 name cfg (List.mem_singleton.mp hm).symm

/-- An answer of 0 is in the settings afterwards. -/
theorem press_zero (s : Session) (h : ZeroAnswer s.app k) :
    (s.press k).app.currentView = .demos ∧ ¬ (s.press k).app.demoCfg.Positive ∧
      (s.press k).app.demoCfg.targetIp = s.app.demoCfg.targetIp ∧
      (s.press k).app.demoCfg.overrideSafety = s.app.demoCfg.overrideSafety := by
  obtain ⟨hview, hprompt, hzero⟩ := h
  have hkeys : k.ch = .char 'r' ∨ k.ch = .char 'R' ∨ k.ch = .char 'd' ∨ k.ch = .char 'D' := by
    simpa [promptsForNumber] using hprompt
  have hrate : ∀ cfg : DemoConfig, ¬ { cfg with ratePps := 0 }.Positive :=
    fun _ hpos => lt_irrefl 0 hpos.rate
  have hduration : ∀ cfg : DemoConfig, ¬ { cfg with durationS := 0 }.Positive :=
    fun _ hpos => lt_irrefl 0 hpos.duration
  rcases hkeys with hk | hk | hk | hk <;>
    simp [Session.press, App.handleInput, App.demosInput, hview, hk, hzero, hrate, hduration]

/-- The next launch is then without a rate or a duration. -/
theorem not_launchesPositive (h : ZeroAnswer (Session.play keys).app k)
    (hvalid : validateTarget (Session.play keys).app.demoCfg.targetIp
      (Session.play keys).app.demoCfg.overrideSafety = .ok ()) :
    ¬ LaunchesPositive (keys ++ [k] ++ [⟨[], .char 'p', none⟩]) := by
  obtain ⟨hview, hnot, htarget, hsafety⟩ := press_zero (Session.play keys) h
  rintro hpos
  apply hnot
  apply hpos .pingFlood
  · rw [play_append, play_append]
    simp [Session.press, App.handleInput, App.demosInput] at hview ⊢
    simp [hview]
  · rw [htarget, hsafety]
    exact hvalid

/-- No demo of the command divides by 0, and none of the dashboard does unless a prompt for a rate
or a duration was answered with 0. After such an answer the next key may start one that does. -/
theorem demos_positive (stack : Stack) (rounds : ℕ) :
    (∀ (experimental : Bool) (args : List Text),
      cmdDemo experimental stack rounds args = pure (.returned 64) ∨
        ∃ name cfg, cfg.Positive ∧ validateTarget cfg.targetIp cfg.overrideSafety = .ok () ∧
          cmdDemo experimental stack rounds args =
            launchDemo stack rounds name cfg >>= fun result => pure (result.map demoExitCode)) ∧
      (∀ keys, NoZeroAnswer keys → LaunchesPositive keys) ∧
      ∀ keys k, ZeroAnswer (Session.play keys).app k →
        validateTarget (Session.play keys).app.demoCfg.targetIp
          (Session.play keys).app.demoCfg.overrideSafety = .ok () →
        ¬ LaunchesPositive (keys ++ [k] ++ [⟨[], .char 'p', none⟩]) := by
  refine ⟨fun experimental args => cmdDemo_positive experimental stack rounds args, ?_, ?_⟩
  · exact fun keys h name cfg hm _ => (play_positive h).2 name cfg hm
  · exact fun keys k h hvalid => not_launchesPositive h hvalid

/-- In the demos view, a rate of 50 and a duration of 3 typed at their prompts, and a launch. -/
def tunedKeys : List KeyPress :=
  [⟨[], .char '4', none⟩, ⟨[], .char 'r', some "50".toList⟩, ⟨[], .char 'd', some "3".toList⟩,
    ⟨[], .char 'p', none⟩]

theorem noZeroAnswer_tunedKeys : NoZeroAnswer tunedKeys := by
  have hfifty : App.parseU32Input (App.promptInput (some "50".toList)) = some 50 := by
    decide +kernel
  have hthree : App.parseU32Input (App.promptInput (some "3".toList)) = some 3 := by
    decide +kernel
  rintro past k ⟨rest, h⟩ ⟨_, hprompt, hzero⟩
  rcases past with _ | ⟨_, _ | ⟨_, _ | ⟨_, _ | ⟨_, past⟩⟩⟩⟩
  · cases h
    cases hprompt
  · cases h
    rw [hfifty] at hzero
    cases hzero
  · cases h
    rw [hthree] at hzero
    cases hzero
  · cases h
    cases hprompt
  · simp [tunedKeys] at h

/-- The launch after these answers is with their rate and their duration. -/
theorem demos_positive_tuned :
    .launchDemo .pingFlood ⟨"127.0.0.1".toList, 80, 50, 3, false⟩ ∈
        (Session.play tunedKeys).actions ∧
      DemoConfig.Positive ⟨"127.0.0.1".toList, 80, 50, 3, false⟩ := by
  have hmem : .launchDemo .pingFlood ⟨"127.0.0.1".toList, 80, 50, 3, false⟩ ∈
      (Session.play tunedKeys).actions := by decide +kernel
  refine ⟨hmem, ?_⟩
  exact (demos_positive ⟨7, 0⟩ 3).2.1 tunedKeys noZeroAnswer_tunedKeys .pingFlood _ hmem
    (by decide +kernel)

/-- A rate of 0 typed at the prompt. -/
theorem not_launchesPositive_zero_rate :
    ¬ ∀ keys, LaunchesPositive keys := by
  rintro h
  have hpos := h [⟨[], .char '4', none⟩, ⟨[], .char 'r', some "0".toList⟩, ⟨[], .char 'p', none⟩]
    .pingFlood ⟨"127.0.0.1".toList, 80, 0, 5, false⟩ (by decide +kernel) (by decide +kernel)
  exact lt_irrefl 0 hpos.rate

end KWatch
