import KWatch.Demo.Scenarios
import KWatch.Util.Numbers

/-! # The demo command

The options of `kwatch demo` may come in any order and more than once; the last value wins. A
text that is refused ends the command with exit code 64 before a scenario starts.
-/

namespace KWatch

open Prog

/-- `std::stoul` where `unsigned long` has 64 bits. -/
def stoul (s : Text) : Option (UInt64 × ℕ) := stoull s

def parseU32Option (option value suffix : Text) : Except Text UInt32 :=
  let invalid := "Invalid value for ".toList ++ option ++ ": ".toList ++ value
  let stem := value.length - suffix.length
  let hasSuffix := suffix != [] && suffix.length < value.length && value.drop stem == suffix
  let digits := if hasSuffix then value.take stem else value
  -- the digits are checked only where a suffix could have been
  if suffix ≠ [] ∧ hasSuffix = false ∧ ¬ (digits ≠ [] ∧ digits.all Ipv4.isDigit = true) then
    .error invalid
  else
    match stoul digits with
    | none => .error invalid
    | some (parsed, pos) =>
      if pos ≠ digits.length ∨ 0xFFFFFFFF < parsed.toNat then .error invalid
      else .ok (UInt32.ofNat parsed.toNat)

def parseU16Option (option value : Text) : Except Text UInt16 :=
  match parseU32Option option value [] with
  | .error err => .error err
  | .ok parsed =>
    if 0xFFFF < parsed.toNat then
      .error ("Invalid value for ".toList ++ option ++ ": ".toList ++ value)
    else .ok (UInt16.ofNat parsed.toNat)

/-- A port is split off at a colon only if there is no other colon. -/
def parseTargetOption (value : Text) (cfg : DemoConfig) : Except Text DemoConfig :=
  if value.count ':' ≠ 1 then .ok { cfg with targetIp := value }
  else
    let host := value.takeWhile (· != ':')
    let port := value.drop (host.length + 1)
    if host = [] ∨ port = [] then .error ("Invalid value for --target: ".toList ++ value)
    else
      match parseU16Option "--target port".toList port with
      | .error err => .error err
      | .ok parsedPort => .ok { cfg with targetIp := host, targetPort := parsedPort }

def overrideFlag : Text := "--i-know-what-im-doing".toList

/-- What an option does with its argument, for the options that have one. -/
def optionWithArgument (opt : Text) (cfg : DemoConfig) : Option (Text → Except Text DemoConfig) :=
  if opt = "--target".toList then some fun value => parseTargetOption value cfg
  else if opt = "--port".toList then some fun value =>
    (parseU16Option "--port".toList value).map fun parsed => { cfg with targetPort := parsed }
  else if opt = "--duration".toList then some fun value =>
    (parseU32Option "--duration".toList value "s".toList).map fun parsed =>
      { cfg with durationS := parsed }
  else if opt = "--rate".toList then some fun value =>
    (parseU32Option "--rate".toList value "pps".toList).map fun parsed =>
      { cfg with ratePps := parsed }
  else none

/-- The loop over the options; the error is what the command logs. -/
def parseDemoOptions : DemoConfig → List Text → Except Text DemoConfig
  | cfg, [] => .ok cfg
  | cfg, opt :: rest =>
    match optionWithArgument opt cfg, rest with
    | some _, [] => .error (opt ++ " requires an argument".toList)
    | some parse, value :: rest' =>
      match parse value with
      | .error err => .error err
      | .ok cfg' => parseDemoOptions cfg' rest'
    | none, rest =>
      if opt = overrideFlag then parseDemoOptions { cfg with overrideSafety := true } rest
      else .error ("Unknown option: ".toList ++ opt)

def cmdDemoDefaults : DemoConfig := ⟨"127.0.0.1".toList, 80, 100, 5, false⟩

def isPermissionError (message : Text) : Bool :=
  decide ("Permission denied".toList <:+: message) || decide ("CAP_NET_RAW".toList <:+: message)

/-- The exit code for what a scenario returned. -/
def demoExitCode : Except Text Unit → ℕ
  | .error message => if isPermissionError message then 77 else 125
  | .ok () => 0

/-- The scenario with a name; `syn-flood` is compiled in with the experimental features. -/
def demoScenario (experimental : Bool) (stack : Stack) (rounds : ℕ) (scenario : Text) :
    Option (DemoConfig → DemoRun) :=
  if scenario = "ping-flood".toList then some (runPingFlood stack rounds)
  else if scenario = "udp-storm".toList then some (runUdpStorm stack rounds)
  else if experimental ∧ scenario = "syn-flood".toList then some (runSynFlood stack rounds)
  else none

/-- The exit code of `kwatch demo`. -/
def cmdDemo (experimental : Bool) (stack : Stack) (rounds : ℕ) (args : List Text) :
    DemoProg (DemoEnd ℕ) :=
  match args with
  | [] => pure (.returned 64)
  | scenario :: options =>
    match parseDemoOptions cmdDemoDefaults options with
    | .error _ => pure (.returned 64)
    | .ok cfg =>
      if cfg.ratePps = 0 ∨ cfg.durationS = 0 then pure (.returned 64)
      else
        match validateTarget cfg.targetIp cfg.overrideSafety with
        | .error _ => pure (.returned 64)
        | .ok () =>
          match demoScenario experimental stack rounds scenario with
          | none => pure (.returned 64)
          | some run => do
            let result ← run cfg
            pure (result.map demoExitCode)

end KWatch
