import KWatch.Demo.Command

/-! # The command line

`parse_args` reads the words of the command line from left to right. A global option may stand
before or after the command and takes the next word where it has a value; the first word that is
no option is the command and every later one an operand.
-/

namespace KWatch

/-- What is compiled in: the dashboard and the experimental features. -/
structure Build where
  tui : Bool
  experimental : Bool
  deriving DecidableEq, Repr

inductive Cli.Command | none | run | top | block | unblock | list | stats | demo | detach
  deriving DecidableEq, Repr

structure GlobalOptions where
  json : Bool := false
  verbose : ℤ := 0
  xdpMode : Text := "auto".toList
  synThreshold : UInt32 := 100
  synWindow : UInt32 := 10
  autoBlock : Bool := false
  autoBlockTtl : UInt32 := 300
  sampleN : UInt32 := 100
  deriving DecidableEq, Repr

structure ParsedCommand where
  cmd : Cli.Command := .none
  globals : GlobalOptions := {}
  args : List Text := []
  deriving DecidableEq, Repr

/-- What the program prints before it exits with code 0. -/
inductive Exit
  | help (cmd : Cli.Command)
  | version
  deriving DecidableEq, Repr

/-- What one word is: an option with the words it takes, or none. -/
inductive GlobalStep
  | exits (e : Exit)
  | error (err : Text)
  | taken (globals : GlobalOptions) (values : ℕ)
  | notOption
  deriving DecidableEq, Repr

inductive ParseOutcome
  | exits (e : Exit)
  | error (err : Text)
  | ok (parsed : ParsedCommand)
  deriving DecidableEq, Repr

def parseSubcommand (b : Build) (s : Text) : Cli.Command :=
  if s = "run".toList then .run
  else if b.tui ∧ s = "top".toList then .top
  else if s = "block".toList then .block
  else if s = "unblock".toList then .unblock
  else if s = "list".toList then .list
  else if s = "stats".toList then .stats
  else if s = "demo".toList then .demo
  else if s = "detach".toList then .detach
  else .none

def isValidXdpMode (mode : Text) : Bool :=
  mode = "auto".toList ∨ mode = "skb".toList ∨ mode = "drv".toList ∨ mode = "hw".toList

def parseU32Arg (option value : Text) : Except Text UInt32 :=
  let invalid := "Invalid value for ".toList ++ option ++ ": ".toList ++ value
  match stoul value with
  | none => .error invalid
  | some (parsed, pos) =>
    if pos ≠ value.length ∨ 0xFFFFFFFF < parsed.toNat then .error invalid
    else .ok (UInt32.ofNat parsed.toNat)

/-- An option whose value is the next word. -/
def optionValue (arg : Text) (rest : List Text) (set : Text → Except Text GlobalOptions) :
    GlobalStep :=
  match rest with
  | [] => .error (arg ++ " requires an argument".toList)
  | value :: _ =>
    match set value with
    | .error err => .error err
    | .ok globals => .taken globals 1

/-- An option whose value is a number. -/
def numberValue (arg : Text) (rest : List Text) (set : UInt32 → Except Text GlobalOptions) :
    GlobalStep :=
  optionValue arg rest fun value => do
    let parsed ← parseU32Arg arg value
    set parsed

def tryParseGlobalOption (b : Build) (parsed : ParsedCommand) (arg : Text) (rest : List Text) :
    GlobalStep :=
  let globals := parsed.globals
  if arg = "--json".toList then .taken { globals with json := true } 0
  else if arg = "-v".toList ∨ arg = "--verbose".toList then
    .taken { globals with verbose := globals.verbose + 1 } 0
  else if arg = "-vv".toList then .taken { globals with verbose := globals.verbose + 2 } 0
  else if arg = "--xdp-mode".toList then
    optionValue arg rest fun mode =>
      if isValidXdpMode mode then .ok { globals with xdpMode := mode }
      else .error ("Invalid value for --xdp-mode: ".toList ++ mode)
  else if arg = "--sample-n".toList then
    numberValue arg rest fun n =>
      if n = 0 then .error "--sample-n must be greater than zero".toList
      else .ok { globals with sampleN := n }
  else if b.experimental ∧ arg = "--syn-threshold".toList then
    numberValue arg rest fun n => .ok { globals with synThreshold := n }
  else if b.experimental ∧ arg = "--syn-window".toList then
    numberValue arg rest fun n => .ok { globals with synWindow := n }
  else if b.experimental ∧ arg = "--auto-block".toList then
    .taken { globals with autoBlock := true } 0
  else if b.experimental ∧ arg = "--auto-block-ttl".toList then
    numberValue arg rest fun n => .ok { globals with autoBlockTtl := n }
  else if arg = "--help".toList ∨ arg = "-h".toList then
    .exits (.help (if parsed.cmd = .none then (rest.head?.elim .none (parseSubcommand b))
      else parsed.cmd))
  else if arg = "--version".toList then .exits .version
  else .notOption

/-- The loop over the words. -/
def parseWords (b : Build) (parsed : ParsedCommand) : List Text → ParseOutcome
  | [] => if parsed.cmd = .none then .error "No command provided".toList else .ok parsed
  | arg :: rest =>
    match tryParseGlobalOption b parsed arg rest with
    | .exits e => .exits e
    | .error err => .error err
    | .taken globals values => parseWords b { parsed with globals := globals } (rest.drop values)
    | .notOption =>
      if parsed.cmd = .none then
        if arg.head? = some '-' then .error ("Unknown global option: ".toList ++ arg)
        else
          let cmd := parseSubcommand b arg
          if cmd = .none then .error ("Unknown command: ".toList ++ arg)
          else parseWords b { parsed with cmd := cmd } rest
      else parseWords b { parsed with args := parsed.args ++ [arg] } rest
  termination_by words => words.length
  decreasing_by all_goals simp only [List.length_cons, List.length_drop]; omega

def parseArgs (b : Build) : List Text → ParseOutcome
  | [] | [_] => .error "No command provided".toList
  | _ :: words => parseWords b {} words

/-! ### Valid options -/

/-- A global option, with the number that its value stands for. -/
inductive GlobalOption
  | json
  | v
  | verbose
  | vv
  | xdpMode (mode : Text)
  | sampleN (value : Text) (n : UInt32)
  | synThreshold (value : Text) (n : UInt32)
  | synWindow (value : Text) (n : UInt32)
  | autoBlock
  | autoBlockTtl (value : Text) (n : UInt32)
  deriving DecidableEq, Repr

namespace GlobalOption

def name : GlobalOption → Text
  | json => "--json".toList
  | v => "-v".toList
  | verbose => "--verbose".toList
  | vv => "-vv".toList
  | xdpMode _ => "--xdp-mode".toList
  | sampleN _ _ => "--sample-n".toList
  | synThreshold _ _ => "--syn-threshold".toList
  | synWindow _ _ => "--syn-window".toList
  | autoBlock => "--auto-block".toList
  | autoBlockTtl _ _ => "--auto-block-ttl".toList

/-- The word behind the option. -/
def values : GlobalOption → List Text
  | json | v | verbose | vv | autoBlock => []
  | xdpMode mode => [mode]
  | sampleN value _ | synThreshold value _ | synWindow value _ | autoBlockTtl value _ => [value]

def words (g : GlobalOption) : List Text := g.name :: g.values

/-- The options that are compiled in with the experimental features. -/
def isExperimental : GlobalOption → Bool
  | synThreshold _ _ | synWindow _ _ | autoBlock | autoBlockTtl _ _ => true
  | _ => false

/-- The value of an option is one that it takes. -/
def ValueOk (g : GlobalOption) : Prop :=
  match g with
  | xdpMode mode => isValidXdpMode mode = true
  | sampleN value n => parseU32Arg g.name value = .ok n ∧ n ≠ 0
  | synThreshold value n | synWindow value n | autoBlockTtl value n =>
    parseU32Arg g.name value = .ok n
  | _ => True

/-- An option of the build with a value that it takes. -/
def Valid (b : Build) (g : GlobalOption) : Prop :=
  (g.isExperimental = true → b.experimental = true) ∧ g.ValueOk

/-- What an option says: the last value wins and verbosity adds up. -/
def apply (globals : GlobalOptions) : GlobalOption → GlobalOptions
  | json => { globals with json := true }
  | v | verbose => { globals with verbose := globals.verbose + 1 }
  | vv => { globals with verbose := globals.verbose + 2 }
  | xdpMode mode => { globals with xdpMode := mode }
  | sampleN _ n => { globals with sampleN := n }
  | synThreshold _ n => { globals with synThreshold := n }
  | synWindow _ n => { globals with synWindow := n }
  | autoBlock => { globals with autoBlock := true }
  | autoBlockTtl _ n => { globals with autoBlockTtl := n }

end GlobalOption

/-- The spellings of the global options of a build. -/
def globalOptionNames (b : Build) : List Text :=
  ["--json".toList, "-v".toList, "--verbose".toList, "-vv".toList, "--xdp-mode".toList,
    "--sample-n".toList, "--help".toList, "-h".toList, "--version".toList] ++
  if b.experimental then
    ["--syn-threshold".toList, "--syn-window".toList, "--auto-block".toList,
      "--auto-block-ttl".toList]
  else []

/-- Options and words are merged: each keeps its order, and a value stays behind its option. -/
inductive Interleaving : List GlobalOption → List Text → List Text → Prop
  | nil : Interleaving [] [] []
  | option {gs : List GlobalOption} {ws merged : List Text} (g : GlobalOption) :
      Interleaving gs ws merged → Interleaving (g :: gs) ws (g.words ++ merged)
  | word {gs : List GlobalOption} {ws merged : List Text} (w : Text) :
      Interleaving gs ws merged → Interleaving gs (w :: ws) (w :: merged)

variable {b : Build} {parsed : ParsedCommand} {arg : Text} {g : GlobalOption}
  {gs : List GlobalOption} {ws merged : List Text}

/-! ### One word -/

/-- A word that is not spelled like an option is none. -/
theorem tryParse_operand (h : arg ∉ globalOptionNames b) (rest : List Text) :
    tryParseGlobalOption b parsed arg rest = .notOption := by
  simp only [globalOptionNames, List.mem_append, List.mem_cons, List.not_mem_nil, or_false,
    not_or] at h
  obtain ⟨⟨hjson, hv, hverbose, hvv, hmode, hsample, hhelp, hh, hversion⟩, hexp⟩ := h
  have hexp' : b.experimental = true → arg ≠ "--syn-threshold".toList ∧
      arg ≠ "--syn-window".toList ∧ arg ≠ "--auto-block".toList ∧
      arg ≠ "--auto-block-ttl".toList := by
    rintro hb
    simpa [hb] using hexp
  rw [tryParseGlobalOption, if_neg hjson, if_neg (not_or.mpr ⟨hv, hverbose⟩), if_neg hvv,
    if_neg hmode, if_neg hsample,
    if_neg fun hb => (hexp' hb.1).1 hb.2, if_neg fun hb => (hexp' hb.1).2.1 hb.2,
    if_neg fun hb => (hexp' hb.1).2.2.1 hb.2, if_neg fun hb => (hexp' hb.1).2.2.2 hb.2,
    if_neg (not_or.mpr ⟨hhelp, hh⟩), if_neg hversion]

theorem numberValue_ok {value : Text} {n : UInt32} (h : parseU32Arg arg value = .ok n)
    (rest : List Text) {set : UInt32 → Except Text GlobalOptions} {globals : GlobalOptions}
    (hset : set n = .ok globals) : numberValue arg (value :: rest) set = .taken globals 1 := by
  simp [numberValue, optionValue, h, hset, bind, Except.bind]

/-- A valid option is taken with its value. -/
theorem tryParse_option (hg : g.Valid b) (rest : List Text) :
    tryParseGlobalOption b parsed g.name (g.values ++ rest) =
      .taken (g.apply parsed.globals) g.values.length := by
  obtain ⟨hexp, hvalue⟩ := hg
  cases g with
  | json =>
    change tryParseGlobalOption b parsed "--json".toList rest = .taken _ 0
    rw [tryParseGlobalOption, if_pos rfl]
    rfl
  | v =>
    change tryParseGlobalOption b parsed "-v".toList rest = .taken _ 0
    rw [tryParseGlobalOption, if_neg (by simp), if_pos (Or.inl rfl)]
    rfl
  | verbose =>
    change tryParseGlobalOption b parsed "--verbose".toList rest = .taken _ 0
    rw [tryParseGlobalOption, if_neg (by simp), if_pos (Or.inr rfl)]
    rfl
  | vv =>
    change tryParseGlobalOption b parsed "-vv".toList rest = .taken _ 0
    rw [tryParseGlobalOption, if_neg (by simp), if_neg (by simp), if_pos rfl]
    rfl
  | xdpMode mode =>
    have hmode : isValidXdpMode mode = true := hvalue
    change tryParseGlobalOption b parsed "--xdp-mode".toList (mode :: rest) = .taken _ 1
    rw [tryParseGlobalOption, if_neg (by simp), if_neg (by simp), if_neg (by simp), if_pos rfl,
      optionValue, if_pos hmode]
    rfl
  | sampleN value n =>
    change tryParseGlobalOption b parsed "--sample-n".toList (value :: rest) = .taken _ 1
    rw [tryParseGlobalOption, if_neg (by simp), if_neg (by simp), if_neg (by simp),
      if_neg (by simp), if_pos rfl]
    exact numberValue_ok hvalue.1 rest (if_neg hvalue.2)
  | synThreshold value n =>
    change tryParseGlobalOption b parsed "--syn-threshold".toList (value :: rest) = .taken _ 1
    rw [tryParseGlobalOption, if_neg (by simp), if_neg (by simp), if_neg (by simp),
      if_neg (by simp), if_neg (by simp), if_pos ⟨hexp rfl, rfl⟩]
    exact numberValue_ok hvalue rest rfl
  | synWindow value n =>
    change tryParseGlobalOption b parsed "--syn-window".toList (value :: rest) = .taken _ 1
    rw [tryParseGlobalOption, if_neg (by simp), if_neg (by simp), if_neg (by simp),
      if_neg (by simp), if_neg (by simp), if_neg (by simp), if_pos ⟨hexp rfl, rfl⟩]
    exact numberValue_ok hvalue rest rfl
  | autoBlock =>
    change tryParseGlobalOption b parsed "--auto-block".toList rest = .taken _ 0
    rw [tryParseGlobalOption, if_neg (by simp), if_neg (by simp), if_neg (by simp),
      if_neg (by simp), if_neg (by simp), if_neg (by simp), if_neg (by simp),
      if_pos ⟨hexp rfl, rfl⟩]
    rfl
  | autoBlockTtl value n =>
    change tryParseGlobalOption b parsed "--auto-block-ttl".toList (value :: rest) = .taken _ 1
    rw [tryParseGlobalOption, if_neg (by simp), if_neg (by simp), if_neg (by simp),
      if_neg (by simp), if_neg (by simp), if_neg (by simp), if_neg (by simp), if_neg (by simp),
      if_pos ⟨hexp rfl, rfl⟩]
    exact numberValue_ok hvalue rest rfl

/-- The names of options start with a dash and those of commands do not. -/
theorem head_of_mem_names (h : arg ∈ globalOptionNames b) : arg.head? = some '-' := by
  have hall : ∀ name ∈ globalOptionNames b, name.head? = some '-' := by
    rw [globalOptionNames]
    cases b.experimental <;> simp
  exact hall arg h

theorem head_of_command {c : Text} (hc : parseSubcommand b c ≠ .none) : c.head? ≠ some '-' := by
  rintro hd
  have hne : ∀ name : Text, name.head? ≠ some '-' → ¬ c = name := by
    rintro name hname rfl
    exact hname hd
  apply hc
  rw [parseSubcommand, if_neg (hne _ (by simp)), if_neg fun h => hne _ (by simp) h.2,
    if_neg (hne _ (by simp)), if_neg (hne _ (by simp)), if_neg (hne _ (by simp)),
    if_neg (hne _ (by simp)), if_neg (hne _ (by simp)), if_neg (hne _ (by simp))]

/-! ### All words -/

/-- After the command every word is an operand. -/
theorem parseWords_after (h : Interleaving gs ws merged) (hgs : ∀ g ∈ gs, g.Valid b)
    (hws : ∀ w ∈ ws, w ∉ globalOptionNames b) (hcmd : parsed.cmd ≠ .none) :
    parseWords b parsed merged =
      .ok ⟨parsed.cmd, gs.foldl GlobalOption.apply parsed.globals, parsed.args ++ ws⟩ := by
  induction h generalizing parsed with
  | nil =>
    rw [parseWords, if_neg hcmd, List.append_nil]
    rfl
  | @option gs ws merged g h ih =>
    obtain ⟨hg, hgs⟩ := List.forall_mem_cons.mp hgs
    rw [GlobalOption.words, List.cons_append, parseWords, tryParse_option hg]
    dsimp only
    rw [List.drop_left]
    exact ih hgs hws hcmd
  | @word gs ws merged w h ih =>
    obtain ⟨hw, hws⟩ := List.forall_mem_cons.mp hws
    rw [parseWords, tryParse_operand hw]
    dsimp only
    rw [if_neg hcmd]
    have hrest := @ih { parsed with args := parsed.args ++ [w] } hgs hws hcmd
    rwa [List.append_assoc, List.singleton_append] at hrest

/-- Up to the command only options are read. -/
theorem parseWords_before {c : Text} (h : Interleaving gs (c :: ws) merged)
    (hgs : ∀ g ∈ gs, g.Valid b) (hws : ∀ w ∈ ws, w ∉ globalOptionNames b)
    (hc : parseSubcommand b c ≠ .none) (hcmd : parsed.cmd = .none) :
    parseWords b parsed merged = .ok ⟨parseSubcommand b c,
      gs.foldl GlobalOption.apply parsed.globals, parsed.args ++ ws⟩ := by
  generalize hall : c :: ws = all at h
  induction h generalizing parsed with
  | nil => cases hall
  | @option gs ws' merged g h ih =>
    obtain ⟨hg, hgs⟩ := List.forall_mem_cons.mp hgs
    rw [GlobalOption.words, List.cons_append, parseWords, tryParse_option hg]
    dsimp only
    rw [List.drop_left]
    exact ih hgs hcmd hall
  | @word gs ws' merged w h ih =>
    cases hall
    have hdash := head_of_command hc
    rw [parseWords, tryParse_operand fun hmem => hdash (head_of_mem_names hmem)]
    dsimp only
    rw [if_pos hcmd, if_neg hdash, if_neg hc]
    exact parseWords_after h hgs hws hc

/-- Global options may stand anywhere: however valid options are merged with a command and its
operands, the command gets its operands in order and all of the options. -/
theorem parseArgs_interleaving {c : Text} (hc : parseSubcommand b c ≠ .none)
    (hws : ∀ w ∈ ws, w ∉ globalOptionNames b) (hgs : ∀ g ∈ gs, g.Valid b)
    (h : Interleaving gs (c :: ws) merged) (program : Text) :
    parseArgs b (program :: merged) =
      .ok ⟨parseSubcommand b c, gs.foldl GlobalOption.apply {}, ws⟩ := by
  have hne : merged ≠ [] := by
    rintro rfl
    cases h
  obtain ⟨w, words, rfl⟩ := List.exists_cons_of_ne_nil hne
  rw [parseArgs, parseWords_before h hgs hws hc rfl]
  · rfl
  · exact hne

theorem parseArgs_interleaving_run :
    parseArgs ⟨true, false⟩ ["kwatch".toList, "-v".toList, "run".toList, "--xdp-mode".toList,
        "skb".toList, "lo".toList, "-vv".toList] =
      .ok ⟨.run, { verbose := 3, xdpMode := "skb".toList }, ["lo".toList]⟩ := by
  have h : Interleaving [.v, .xdpMode "skb".toList, .vv] ["run".toList, "lo".toList]
      ["-v".toList, "run".toList, "--xdp-mode".toList, "skb".toList, "lo".toList, "-vv".toList] :=
    .option .v (.word _ (.option (.xdpMode "skb".toList) (.word _ (.option .vv .nil))))
  exact parseArgs_interleaving (b := ⟨true, false⟩) (by decide) (by decide)
    (by
      rintro g hg
      simp only [List.mem_cons, List.not_mem_nil, or_false] at hg
      rcases hg with rfl | rfl | rfl
      · exact ⟨nofun, trivial⟩
      · exact ⟨nofun, (by decide : isValidXdpMode "skb".toList = true)⟩
      · exact ⟨nofun, trivial⟩) h "kwatch".toList

end KWatch
