import KWatch.Cli.Parser

/-! # Accepted and refused command lines

A command line is accepted exactly if it merges valid options with a command and its operands.
Otherwise the first word that cannot be read, or `--help` or `--version`, decides what `main` does.
-/

namespace KWatch

/-! ### The start of the program -/

/-- The levels of `kwlog` that `main` sets. -/
inductive Level | info | debug | trace
  deriving DecidableEq, Repr

def levelOf (verbose : ℤ) : Level :=
  if verbose = 1 then .debug else if 2 ≤ verbose then .trace else .info

/-- What `main` does with its words. -/
inductive Start
  | exits (code : ℕ)
  | command (level : Level) (parsed : ParsedCommand)
  deriving DecidableEq, Repr

def Start.ofOutcome : ParseOutcome → Start
  | .error _ => .exits 64
  | .exits _ => .exits 0
  | .ok parsed => .command (levelOf parsed.globals.verbose) parsed

def mainStart (b : Build) (argv : List Text) : Start := .ofOutcome (parseArgs b argv)

/-! ### Reading -/

/-- The names of the options that take a number. -/
def numberOptionNames (b : Build) : List Text :=
  "--sample-n".toList ::
    if b.experimental then
      ["--syn-threshold".toList, "--syn-window".toList, "--auto-block-ttl".toList]
    else []

/-- The command that the words so far name. -/
def commandOf (b : Build) (ws : List Text) : Cli.Command := ws.head?.elim .none (parseSubcommand b)

/-- The first of the words is a command, and none is an option. -/
inductive Words (b : Build) : List Text → Prop
  | none : Words b []
  | some {c : Text} {ws : List Text} : parseSubcommand b c ≠ .none →
      (∀ w ∈ ws, w ∉ globalOptionNames b) → Words b (c :: ws)

/-- Why nothing more can be read, once the command is known or not. -/
inductive Fault (b : Build) (cmd : Cli.Command) : List Text → Text → Prop
  | noCommand : cmd = .none → Fault b cmd [] "No command provided".toList
  | noValue {arg : Text} : arg ∈ "--xdp-mode".toList :: numberOptionNames b →
      Fault b cmd [arg] (arg ++ " requires an argument".toList)
  | badMode {mode : Text} {rest : List Text} : isValidXdpMode mode = false →
      Fault b cmd ("--xdp-mode".toList :: mode :: rest)
        ("Invalid value for --xdp-mode: ".toList ++ mode)
  | badNumber {arg value : Text} {rest : List Text} : arg ∈ numberOptionNames b →
      (∀ n, parseU32Arg arg value ≠ .ok n) →
      Fault b cmd (arg :: value :: rest)
        ("Invalid value for ".toList ++ arg ++ ": ".toList ++ value)
  | zeroSample {value : Text} {rest : List Text} :
      parseU32Arg "--sample-n".toList value = .ok 0 →
      Fault b cmd ("--sample-n".toList :: value :: rest)
        "--sample-n must be greater than zero".toList
  | unknownOption {arg : Text} {rest : List Text} : cmd = .none → arg ∉ globalOptionNames b →
      arg.head? = some '-' →
      Fault b cmd (arg :: rest) ("Unknown global option: ".toList ++ arg)
  | unknownCommand {arg : Text} {rest : List Text} : cmd = .none → arg.head? ≠ some '-' →
      parseSubcommand b arg = .none →
      Fault b cmd (arg :: rest) ("Unknown command: ".toList ++ arg)

/-- A word that prints something and ends the program. -/
inductive Asks (b : Build) (cmd : Cli.Command) : List Text → Exit → Prop
  | help {arg : Text} {rest : List Text} : arg = "--help".toList ∨ arg = "-h".toList →
      Asks b cmd (arg :: rest)
        (.help (if cmd = .none then rest.head?.elim .none (parseSubcommand b) else cmd))
  | version {rest : List Text} : Asks b cmd ("--version".toList :: rest) .version

/-- What a command line is read as: its readable part, and what comes behind it. -/
inductive Verdict (b : Build) (words : List Text) : ParseOutcome → Prop
  | ok {gs : List GlobalOption} {c : Text} {ws : List Text} : Interleaving gs (c :: ws) words →
      (∀ g ∈ gs, g.Valid b) → Words b (c :: ws) →
      Verdict b words (.ok ⟨parseSubcommand b c, gs.foldl GlobalOption.apply {}, ws⟩)
  | exits {gs : List GlobalOption} {ws done tail : List Text} {e : Exit} :
      words = done ++ tail → Interleaving gs ws done → (∀ g ∈ gs, g.Valid b) → Words b ws →
      Asks b (commandOf b ws) tail e → Verdict b words (.exits e)
  | error {gs : List GlobalOption} {ws done tail : List Text} {err : Text} :
      words = done ++ tail → Interleaving gs ws done → (∀ g ∈ gs, g.Valid b) → Words b ws →
      Fault b (commandOf b ws) tail err → Verdict b words (.error err)

variable {b : Build} {parsed : ParsedCommand} {arg : Text} {rest : List Text} {g : GlobalOption}
  {gs : List GlobalOption} {ws merged : List Text} {err : Text} {e : Exit}

/-! ### One word -/

/-- What one word has been found to be. -/
def Classified (b : Build) (parsed : ParsedCommand) (arg : Text) (rest : List Text) :
    GlobalStep → Prop
  | .taken globals n => ∃ g : GlobalOption, g.Valid b ∧ arg = g.name ∧
      rest = g.values ++ rest.drop n ∧ globals = g.apply parsed.globals
  | .exits e => Asks b parsed.cmd (arg :: rest) e
  | .error err => Fault b parsed.cmd (arg :: rest) err
  | .notOption => arg ∉ globalOptionNames b

/-- What a value has been found to be. -/
def ValueClassified (b : Build) (parsed : ParsedCommand) (arg value : Text) (rest : List Text) :
    Except Text GlobalOptions → Prop
  | .ok globals => ∃ g : GlobalOption, g.Valid b ∧ arg = g.name ∧ g.values = [value] ∧
      globals = g.apply parsed.globals
  | .error err => Fault b parsed.cmd (arg :: value :: rest) err

theorem classified_optionValue (harg : arg ∈ "--xdp-mode".toList :: numberOptionNames b)
    {set : Text → Except Text GlobalOptions}
    (hset : ∀ value rest, ValueClassified b parsed arg value rest (set value)) :
    Classified b parsed arg rest (optionValue arg rest set) := by
  cases rest with
  | nil => exact .noValue harg
  | cons value rest =>
    have hvalue := hset value rest
    rw [optionValue]
    cases hs : set value with
    | error err => rwa [hs] at hvalue
    | ok globals =>
      rw [hs] at hvalue
      obtain ⟨g, hg, hname, hvalues, hglobals⟩ := hvalue
      exact ⟨g, hg, hname, by rw [hvalues]; rfl, hglobals⟩

theorem parseU32Arg_error {value : Text} (h : parseU32Arg arg value = .error err) :
    err = "Invalid value for ".toList ++ arg ++ ": ".toList ++ value := by
  rw [parseU32Arg] at h
  split at h
  · cases h
    rfl
  · split_ifs at h
    cases h
    rfl

theorem classified_numberValue (harg : arg ∈ numberOptionNames b)
    {set : UInt32 → Except Text GlobalOptions}
    (hset : ∀ value n rest, parseU32Arg arg value = .ok n →
      ValueClassified b parsed arg value rest (set n)) :
    Classified b parsed arg rest (numberValue arg rest set) := by
  refine classified_optionValue (List.mem_cons_of_mem _ harg) fun value rest => ?_
  cases hn : parseU32Arg arg value with
  | error err =>
    rw [parseU32Arg_error hn]
    exact .badNumber harg fun n h => by cases hn.symm.trans h
  | ok n => exact hset value n rest hn

theorem tryParse_classified (b : Build) (parsed : ParsedCommand) (arg : Text)
    (rest : List Text) :
    Classified b parsed arg rest (tryParseGlobalOption b parsed arg rest) := by
  by_cases hjson : arg = "--json".toList
  · rw [tryParseGlobalOption, if_pos hjson]
    exact ⟨.json, ⟨by rintro ⟨⟩, trivial⟩, hjson, rfl, rfl⟩
  by_cases hv : arg = "-v".toList ∨ arg = "--verbose".toList
  · rw [tryParseGlobalOption, if_neg hjson, if_pos hv]
    rcases hv with hv | hv
    · exact ⟨.v, ⟨by rintro ⟨⟩, trivial⟩, hv, rfl, rfl⟩
    · exact ⟨.verbose, ⟨by rintro ⟨⟩, trivial⟩, hv, rfl, rfl⟩
  by_cases hvv : arg = "-vv".toList
  · rw [tryParseGlobalOption, if_neg hjson, if_neg hv, if_pos hvv]
    exact ⟨.vv, ⟨by rintro ⟨⟩, trivial⟩, hvv, rfl, rfl⟩
  by_cases hmode : arg = "--xdp-mode".toList
  · rw [tryParseGlobalOption, if_neg hjson, if_neg hv, if_neg hvv, if_pos hmode]
    refine classified_optionValue (hmode ▸ List.mem_cons_self) fun mode rest => ?_
    by_cases hok : isValidXdpMode mode = true
    · rw [if_pos hok]
      exact ⟨.xdpMode mode, ⟨by rintro ⟨⟩, hok⟩, hmode, rfl, rfl⟩
    · rw [if_neg hok, hmode]
      exact .badMode (Bool.not_eq_true _ ▸ hok)
  by_cases hsample : arg = "--sample-n".toList
  · rw [tryParseGlobalOption, if_neg hjson, if_neg hv, if_neg hvv, if_neg hmode, if_pos hsample]
    refine classified_numberValue (hsample ▸ List.mem_cons_self) fun value n rest hn => ?_
    rw [hsample] at hn ⊢
    by_cases hzero : n = 0
    · rw [if_pos hzero]
      exact .zeroSample (hzero ▸ hn)
    · rw [if_neg hzero]
      exact ⟨.sampleN value n, ⟨by rintro ⟨⟩, hn, hzero⟩, rfl, rfl, rfl⟩
  by_cases hthreshold : b.experimental ∧ arg = "--syn-threshold".toList
  · rw [tryParseGlobalOption, if_neg hjson, if_neg hv, if_neg hvv, if_neg hmode, if_neg hsample,
      if_pos hthreshold]
    obtain ⟨hexp, rfl⟩ := hthreshold
    exact classified_numberValue (by simp [numberOptionNames, hexp]) fun value n _ hn =>
      ⟨.synThreshold value n, ⟨fun _ => hexp, hn⟩, rfl, rfl, rfl⟩
  by_cases hwindow : b.experimental ∧ arg = "--syn-window".toList
  · rw [tryParseGlobalOption, if_neg hjson, if_neg hv, if_neg hvv, if_neg hmode, if_neg hsample,
      if_neg hthreshold, if_pos hwindow]
    obtain ⟨hexp, rfl⟩ := hwindow
    exact classified_numberValue (by simp [numberOptionNames, hexp]) fun value n _ hn =>
      ⟨.synWindow value n, ⟨fun _ => hexp, hn⟩, rfl, rfl, rfl⟩
  by_cases hblock : b.experimental ∧ arg = "--auto-block".toList
  · rw [tryParseGlobalOption, if_neg hjson, if_neg hv, if_neg hvv, if_neg hmode, if_neg hsample,
      if_neg hthreshold, if_neg hwindow, if_pos hblock]
    exact ⟨.autoBlock, ⟨fun _ => hblock.1, trivial⟩, hblock.2, rfl, rfl⟩
  by_cases httl : b.experimental ∧ arg = "--auto-block-ttl".toList
  · rw [tryParseGlobalOption, if_neg hjson, if_neg hv, if_neg hvv, if_neg hmode, if_neg hsample,
      if_neg hthreshold, if_neg hwindow, if_neg hblock, if_pos httl]
    obtain ⟨hexp, rfl⟩ := httl
    exact classified_numberValue (by simp [numberOptionNames, hexp]) fun value n _ hn =>
      ⟨.autoBlockTtl value n, ⟨fun _ => hexp, hn⟩, rfl, rfl, rfl⟩
  rw [tryParseGlobalOption, if_neg hjson, if_neg hv, if_neg hvv, if_neg hmode, if_neg hsample,
    if_neg hthreshold, if_neg hwindow, if_neg hblock, if_neg httl]
  by_cases hhelp : arg = "--help".toList ∨ arg = "-h".toList
  · rw [if_pos hhelp]
    exact .help hhelp
  by_cases hversion : arg = "--version".toList
  · rw [if_neg hhelp, if_pos hversion, hversion]
    exact .version
  rw [if_neg hhelp, if_neg hversion]
  obtain ⟨hshort, hlong⟩ := not_or.mp hv
  obtain ⟨hhelp, hh⟩ := not_or.mp hhelp
  change arg ∉ _
  rw [globalOptionNames, List.mem_append, not_or]
  constructor
  · simp only [List.mem_cons, List.not_mem_nil, or_false, not_or]
    exact ⟨hjson, hshort, hlong, hvv, hmode, hsample, hhelp, hh, hversion⟩
  · split_ifs with hb
    · simp only [List.mem_cons, List.not_mem_nil, or_false, not_or]
      exact ⟨fun h => hthreshold ⟨hb, h⟩, fun h => hwindow ⟨hb, h⟩, fun h => hblock ⟨hb, h⟩,
        fun h => httl ⟨hb, h⟩⟩
    · exact List.not_mem_nil

/-! ### All words -/

/-- What is read of a word that is no option. -/
def ParsedCommand.word (b : Build) (parsed : ParsedCommand) (w : Text) : ParsedCommand :=
  if parsed.cmd = .none then { parsed with cmd := parseSubcommand b w }
  else { parsed with args := parsed.args ++ [w] }

/-- What has been read of some options and some words. -/
def ParsedCommand.read (b : Build) (parsed : ParsedCommand) (gs : List GlobalOption)
    (ws : List Text) : ParsedCommand :=
  { ws.foldl (ParsedCommand.word b) parsed with
    globals := gs.foldl GlobalOption.apply parsed.globals }

/-- What may be read, once the command is known or not. -/
def Readable (b : Build) (cmd : Cli.Command) (ws : List Text) : Prop :=
  if cmd = .none then Words b ws else ∀ w ∈ ws, w ∉ globalOptionNames b

@[simp] theorem read_nil : parsed.read b [] [] = parsed := rfl

theorem read_word (w : Text) :
    parsed.read b gs (w :: ws) = (parsed.word b w).read b gs ws := by
  have hglobals : (parsed.word b w).globals = parsed.globals := by
    unfold ParsedCommand.word
    split_ifs <;> rfl
  rw [ParsedCommand.read, ParsedCommand.read, hglobals]
  rfl

theorem foldl_word_globals (ws : List Text) (globals globals' : GlobalOptions) :
    { ws.foldl (ParsedCommand.word b) { parsed with globals := globals } with
        globals := globals' } =
      { ws.foldl (ParsedCommand.word b) parsed with globals := globals' } := by
  induction ws generalizing parsed with
  | nil => rfl
  | cons w ws ih =>
    have hword : ParsedCommand.word b { parsed with globals := globals } w =
        { parsed.word b w with globals := globals } := by
      unfold ParsedCommand.word
      split_ifs <;> rfl
    rw [List.foldl_cons, List.foldl_cons, hword, ih]

theorem read_option (g : GlobalOption) : parsed.read b (g :: gs) ws =
    ParsedCommand.read b { parsed with globals := g.apply parsed.globals } gs ws :=
  (foldl_word_globals ws _ _).symm

theorem not_mem_names_of_command {c : Text} (hc : parseSubcommand b c ≠ .none) :
    c ∉ globalOptionNames b :=
  fun hmem => head_of_command hc (head_of_mem_names hmem)

/-- The first readable word, and those behind it. -/
theorem readable_cons {w : Text} : Readable b parsed.cmd (w :: ws) ↔
    w ∉ globalOptionNames b ∧ (parsed.cmd = .none → parseSubcommand b w ≠ .none) ∧
      Readable b (parsed.word b w).cmd ws := by
  by_cases hcmd : parsed.cmd = .none
  · rw [Readable, if_pos hcmd, ParsedCommand.word, if_pos hcmd]
    constructor
    · rintro ⟨⟩
      next hc hws =>
        refine ⟨not_mem_names_of_command hc, fun _ => hc, ?_⟩
        rw [Readable, if_neg hc]
        exact hws
    · rintro ⟨-, hc, hws⟩
      rw [Readable, if_neg (hc hcmd)] at hws
      exact .some (hc hcmd) hws
  · rw [Readable, if_neg hcmd, ParsedCommand.word, if_neg hcmd, Readable, if_neg hcmd,
      List.forall_mem_cons]
    simp [hcmd]

/-- What is readable is read. -/
theorem parseWords_read (h : Interleaving gs ws merged) (hgs : ∀ g ∈ gs, g.Valid b)
    (hws : Readable b parsed.cmd ws) (tail : List Text) :
    parseWords b parsed (merged ++ tail) = parseWords b (parsed.read b gs ws) tail := by
  induction h generalizing parsed with
  | nil => rfl
  | @option gs ws merged g h ih =>
    obtain ⟨hg, hgs⟩ := List.forall_mem_cons.mp hgs
    rw [GlobalOption.words, List.cons_append, List.cons_append, List.append_assoc, parseWords,
      tryParse_option hg]
    dsimp only
    rw [List.drop_left, read_option]
    exact ih hgs hws
  | @word gs ws merged w h ih =>
    obtain ⟨hname, hc, hws⟩ := readable_cons.mp hws
    rw [List.cons_append, parseWords, tryParse_operand hname, read_word, ← ih hgs hws]
    dsimp only
    by_cases hcmd : parsed.cmd = .none
    · rw [if_pos hcmd, if_neg (head_of_command (hc hcmd)), if_neg (hc hcmd), ParsedCommand.word,
        if_pos hcmd]
    · rw [if_neg hcmd, ParsedCommand.word, if_neg hcmd]

/-- What comes behind the words that have been read. -/
def Ended (b : Build) (parsed : ParsedCommand) (tail : List Text) : ParseOutcome → Prop
  | .ok p => tail = [] ∧ parsed.cmd ≠ .none ∧ p = parsed
  | .exits e => Asks b parsed.cmd tail e
  | .error err => Fault b parsed.cmd tail err

/-- A part of the words is read, and what comes behind it decides the outcome. -/
def ReadsTo (b : Build) (parsed : ParsedCommand) (words : List Text) (o : ParseOutcome) : Prop :=
  ∃ gs ws done tail, words = done ++ tail ∧ Interleaving gs ws done ∧
    (∀ g ∈ gs, GlobalOption.Valid b g) ∧ Readable b parsed.cmd ws ∧
    Ended b (parsed.read b gs ws) tail o

variable {words : List Text} {o : ParseOutcome}

theorem ReadsTo.stop (h : Ended b parsed words o) : ReadsTo b parsed words o := by
  refine ⟨[], [], [], words, rfl, .nil, by simp, ?_, h⟩
  unfold Readable
  split_ifs
  · exact .none
  · simp

theorem ReadsTo.option (hg : g.Valid b)
    (h : ReadsTo b { parsed with globals := g.apply parsed.globals } words o) :
    ReadsTo b parsed (g.words ++ words) o := by
  obtain ⟨gs, ws, done, tail, rfl, hmerge, hgs, hws, hend⟩ := h
  exact ⟨g :: gs, ws, g.words ++ done, tail, by simp, .option g hmerge,
    List.forall_mem_cons.mpr ⟨hg, hgs⟩, hws, by rwa [read_option]⟩

theorem ReadsTo.word {w : Text} (hname : w ∉ globalOptionNames b)
    (hc : parsed.cmd = .none → parseSubcommand b w ≠ .none)
    (h : ReadsTo b (parsed.word b w) words o) : ReadsTo b parsed (w :: words) o := by
  obtain ⟨gs, ws, done, tail, rfl, hmerge, hgs, hws, hend⟩ := h
  exact ⟨gs, w :: ws, w :: done, tail, rfl, .word w hmerge, hgs,
    readable_cons.mpr ⟨hname, hc, hws⟩, by rwa [read_word]⟩

/-- Every command line is read up to what decides its outcome. -/
theorem readsTo_parseWords (b : Build) (parsed : ParsedCommand) (words : List Text) :
    ReadsTo b parsed words (parseWords b parsed words) := by
  fun_induction parseWords b parsed words with
  | case1 parsed hcmd => exact .stop (.noCommand hcmd)
  | case2 parsed hcmd => exact .stop ⟨rfl, hcmd, rfl⟩
  | case3 parsed arg rest e he =>
    have h := tryParse_classified b parsed arg rest
    rw [he] at h
    exact .stop h
  | case4 parsed arg rest err he =>
    have h := tryParse_classified b parsed arg rest
    rw [he] at h
    exact .stop h
  | case5 parsed arg rest globals n he ih =>
    have h := tryParse_classified b parsed arg rest
    rw [he] at h
    obtain ⟨g, hg, rfl, hrest, rfl⟩ := h
    have hwords : g.name :: rest = g.words ++ rest.drop n := by
      rw [GlobalOption.words, List.cons_append, ← hrest]
    rw [hwords]
    exact .option hg ih
  | case6 parsed arg rest he hcmd hdash =>
    have h := tryParse_classified b parsed arg rest
    rw [he] at h
    exact .stop (.unknownOption hcmd h hdash)
  | case7 parsed arg rest he hcmd hdash cmd hnone =>
    exact .stop (.unknownCommand hcmd hdash hnone)
  | case8 parsed arg rest he hcmd hdash cmd hsome ih =>
    refine .word (not_mem_names_of_command hsome) (fun _ => hsome) ?_
    rwa [ParsedCommand.word, if_pos hcmd]
  | case9 parsed arg rest he hcmd ih =>
    have h := tryParse_classified b parsed arg rest
    rw [he] at h
    refine .word h (fun hnone => absurd hnone hcmd) ?_
    rwa [ParsedCommand.word, if_neg hcmd]

/-! ### What decides the outcome -/

theorem tryParse_xdpMode (parsed : ParsedCommand) (rest : List Text) :
    tryParseGlobalOption b parsed "--xdp-mode".toList rest =
      optionValue "--xdp-mode".toList rest fun mode =>
        if isValidXdpMode mode then .ok { parsed.globals with xdpMode := mode }
        else .error ("Invalid value for --xdp-mode: ".toList ++ mode) := by
  rw [tryParseGlobalOption, if_neg (by simp), if_neg (by simp), if_neg (by simp), if_pos rfl]

theorem tryParse_sampleN (parsed : ParsedCommand) (rest : List Text) :
    tryParseGlobalOption b parsed "--sample-n".toList rest =
      numberValue "--sample-n".toList rest fun n =>
        if n = 0 then .error "--sample-n must be greater than zero".toList
        else .ok { parsed.globals with sampleN := n } := by
  rw [tryParseGlobalOption, if_neg (by simp), if_neg (by simp), if_neg (by simp), if_neg (by simp),
    if_pos rfl]

theorem tryParse_number (harg : arg ∈ numberOptionNames b) (parsed : ParsedCommand) :
    ∃ set, ∀ rest, tryParseGlobalOption b parsed arg rest = numberValue arg rest set := by
  rw [numberOptionNames, List.mem_cons] at harg
  rcases harg with rfl | harg
  · exact ⟨_, tryParse_sampleN parsed⟩
  · split_ifs at harg with hexp
    · simp only [List.mem_cons, List.not_mem_nil, or_false] at harg
      rcases harg with rfl | rfl | rfl
      · refine ⟨fun n => .ok { parsed.globals with synThreshold := n }, fun rest => ?_⟩
        rw [tryParseGlobalOption, if_neg (by simp), if_neg (by simp), if_neg (by simp),
          if_neg (by simp), if_neg (by simp), if_pos ⟨hexp, rfl⟩]
      · refine ⟨fun n => .ok { parsed.globals with synWindow := n }, fun rest => ?_⟩
        rw [tryParseGlobalOption, if_neg (by simp), if_neg (by simp), if_neg (by simp),
          if_neg (by simp), if_neg (by simp), if_neg (by simp), if_pos ⟨hexp, rfl⟩]
      · refine ⟨fun n => .ok { parsed.globals with autoBlockTtl := n }, fun rest => ?_⟩
        rw [tryParseGlobalOption, if_neg (by simp), if_neg (by simp), if_neg (by simp),
          if_neg (by simp), if_neg (by simp), if_neg (by simp), if_neg (by simp),
          if_neg (by simp), if_pos ⟨hexp, rfl⟩]
    · cases harg

theorem parseWords_of_error (h : tryParseGlobalOption b parsed arg rest = .error err) :
    parseWords b parsed (arg :: rest) = .error err := by
  rw [parseWords, h]

theorem parseWords_of_fault (h : Fault b parsed.cmd words err) :
    parseWords b parsed words = .error err := by
  cases h with
  | noCommand hcmd => rw [parseWords, if_pos hcmd]
  | @noValue arg harg =>
    apply parseWords_of_error
    rcases List.mem_cons.mp harg with rfl | harg
    · exact tryParse_xdpMode parsed []
    · obtain ⟨set, hset⟩ := tryParse_number harg parsed
      exact hset []
  | @badMode mode rest hmode =>
    apply parseWords_of_error
    rw [tryParse_xdpMode, optionValue, if_neg (by rw [hmode]; exact Bool.false_ne_true)]
  | @badNumber arg value rest harg hbad =>
    apply parseWords_of_error
    obtain ⟨set, hset⟩ := tryParse_number harg parsed
    rw [hset, numberValue, optionValue]
    cases hn : parseU32Arg arg value with
    | ok n => exact absurd hn (hbad n)
    | error err =>
      rw [← parseU32Arg_error hn]
      rfl
  | @zeroSample value rest hzero =>
    apply parseWords_of_error
    rw [tryParse_sampleN, numberValue, optionValue, hzero]
    rfl
  | unknownOption hcmd hname hdash =>
    rw [parseWords, tryParse_operand hname]
    dsimp only
    rw [if_pos hcmd, if_pos hdash]
  | unknownCommand hcmd hdash hnone =>
    rw [parseWords, tryParse_operand fun hmem => hdash (head_of_mem_names hmem)]
    dsimp only
    rw [if_pos hcmd, if_neg hdash, if_pos hnone]

theorem parseWords_of_asks (h : Asks b parsed.cmd words e) :
    parseWords b parsed words = .exits e := by
  cases h with
  | @help arg rest harg =>
    have hstep : tryParseGlobalOption b parsed arg rest =
        .exits (.help (if parsed.cmd = .none then rest.head?.elim .none (parseSubcommand b)
          else parsed.cmd)) := by
      rcases harg with rfl | rfl
      · rw [tryParseGlobalOption, if_neg (by simp), if_neg (by simp), if_neg (by simp),
          if_neg (by simp), if_neg (by simp), if_neg (by simp), if_neg (by simp),
          if_neg (by simp), if_neg (by simp), if_pos (.inl rfl)]
      · rw [tryParseGlobalOption, if_neg (by simp), if_neg (by simp), if_neg (by simp),
          if_neg (by simp), if_neg (by simp), if_neg (by simp), if_neg (by simp),
          if_neg (by simp), if_neg (by simp), if_pos (.inr rfl)]
    rw [parseWords, hstep]
  | version =>
    rw [parseWords, tryParseGlobalOption, if_neg (by simp), if_neg (by simp), if_neg (by simp),
      if_neg (by simp), if_neg (by simp), if_neg (by simp), if_neg (by simp), if_neg (by simp),
      if_neg (by simp), if_neg (by simp), if_pos rfl]

theorem parseWords_of_ended (h : Ended b parsed words o) : parseWords b parsed words = o := by
  cases o with
  | ok p =>
    obtain ⟨rfl, hcmd, rfl⟩ := h
    rw [parseWords, if_neg hcmd]
  | exits e => exact parseWords_of_asks h
  | error err => exact parseWords_of_fault h

theorem parseWords_eq_iff : parseWords b parsed words = o ↔ ReadsTo b parsed words o := by
  constructor
  · rintro rfl
    exact readsTo_parseWords b parsed words
  · rintro ⟨gs, ws, done, tail, rfl, hmerge, hgs, hws, hend⟩
    rw [parseWords_read hmerge hgs hws]
    exact parseWords_of_ended hend

/-- What has been read from the start. -/
theorem read_start (hws : Words b ws) : ParsedCommand.read b {} gs ws =
    ⟨commandOf b ws, gs.foldl GlobalOption.apply {}, ws.tail⟩ := by
  cases hws with
  | none => rfl
  | @some c ws hc hws =>
    have hargs : ∀ (as : List Text), ws.foldl (ParsedCommand.word b)
        ⟨parseSubcommand b c, {}, as⟩ = ⟨parseSubcommand b c, {}, as ++ ws⟩ := by
      clear hws
      induction ws with
      | nil => simp
      | cons w ws ih =>
        intro as
        rw [List.foldl_cons, ParsedCommand.word, if_neg hc, ih]
        simp
    rw [ParsedCommand.read, List.foldl_cons, ParsedCommand.word, if_pos rfl, hargs]
    rfl

theorem readsTo_start_iff : ReadsTo b {} words o ↔ Verdict b words o := by
  constructor
  · rintro ⟨gs, ws, done, tail, rfl, hmerge, hgs, hws, hend⟩
    have hwords : Words b ws := hws
    rw [read_start hwords] at hend
    cases o with
    | ok p =>
      obtain ⟨rfl, hcmd, rfl⟩ := hend
      cases hwords with
      | none => exact absurd rfl hcmd
      | some hc has => exact .ok (by simpa using hmerge) hgs (.some hc has)
    | exits e => exact .exits rfl hmerge hgs hwords hend
    | error err => exact .error rfl hmerge hgs hwords hend
  · rintro h
    cases h with
    | @ok gs c ws hmerge hgs hws =>
      refine ⟨gs, c :: ws, words, [], by simp, hmerge, hgs, hws, rfl, ?_, ?_⟩
      · cases hws with
        | some hc _ => rwa [read_start (.some hc ‹_›)]
      · rw [read_start hws]
        rfl
    | @exits gs ws done tail e hwords hmerge hgs hws hasks =>
      refine ⟨gs, ws, done, tail, hwords, hmerge, hgs, hws, ?_⟩
      rwa [read_start hws]
    | @error gs ws done tail err hwords hmerge hgs hws hfault =>
      refine ⟨gs, ws, done, tail, hwords, hmerge, hgs, hws, ?_⟩
      rwa [read_start hws]

/-- The outcome of a command line is what its words are read as. -/
theorem parseArgs_iff (b : Build) (program : Text) (words : List Text) (o : ParseOutcome) :
    parseArgs b (program :: words) = o ↔ Verdict b words o := by
  have hstart : parseArgs b (program :: words) = parseWords b {} words := by
    cases words with
    | nil => rw [parseArgs, parseWords, if_pos rfl]
    | cons w words => rw [parseArgs]; simp
  rw [hstart, parseWords_eq_iff, readsTo_start_iff]

/-- A command is run exactly for a merge of valid options with a command and its operands. Any other
command line ends in the exit code 0 or 64 at the first word that asks for it. -/
theorem mainStart_iff (b : Build) (program : Text) (words : List Text) (start : Start) :
    mainStart b (program :: words) = start ↔ ∃ o, Verdict b words o ∧ .ofOutcome o = start := by
  constructor
  · rintro rfl
    exact ⟨_, (parseArgs_iff b program words _).mp rfl, rfl⟩
  · rintro ⟨o, ho, rfl⟩
    rw [mainStart, (parseArgs_iff b program words o).mpr ho]

end KWatch
