import KWatch.Demo.Command
import KWatch.Maps.Blacklist

/-! # Keys of the dashboard

One call of `handle_input` reads a key and, where the key asks for it, an answer. It changes the
view, the selection or the demo settings, edits the blacklist, or launches a demo.
-/

namespace KWatch

inductive View | dashboard | threats | firewall | demos
  deriving DecidableEq, Repr

structure FirewallRow where
  prefixlen : UInt32
  ip : UInt32
  ageS : UInt64
  dropCount : UInt64
  deriving DecidableEq, Repr

/-- What `getch` returns: a character, an arrow, or anything else. -/
inductive Key
  | char (c : Char)
  | up
  | down
  | other
  deriving DecidableEq, Repr

/-- The part of the dashboard that keys change. -/
structure App where
  currentView : View
  firewallSelectedIndex : ℤ
  running : Bool
  demoCfg : DemoConfig
  deriving DecidableEq, Repr

inductive DemoName | synFlood | pingFlood | udpStorm
  deriving DecidableEq, Repr

/-- What a call does outside of the dashboard. -/
inductive AppAction
  | none
  | mapUpdate (k : LpmKey)
  | mapDelete (k : LpmKey)
  | launchDemo (name : DemoName) (cfg : DemoConfig)
  deriving DecidableEq, Repr

namespace App

def start : App := ⟨.dashboard, 0, true, ⟨"127.0.0.1".toList, 80, 50, 5, false⟩⟩

/-- `prompt_input`: nothing when reading fails, and at most what the buffer holds. -/
def promptInput : Option Text → Text
  | Option.none => []
  | some typed => Ipv4.cStr (typed.take 255)

def parseU32Input (value : Text) : Option UInt32 :=
  if value = [] then Option.none
  else
    match stoul value with
    | Option.none => Option.none
    | some (parsed, pos) =>
      if pos ≠ value.length ∨ 0xFFFFFFFF < parsed.toNat then Option.none
      else some (UInt32.ofNat parsed.toNat)

def parseU16Input (value : Text) : Option UInt16 :=
  match parseU32Input value with
  | Option.none => Option.none
  | some parsed => if 0xFFFF < parsed.toNat then Option.none else some (UInt16.ofNat parsed.toNat)

/-- A key in the firewall view. -/
def firewallInput (a : App) (rows : List FirewallRow) (ch : Key) (answer : Option Text) :
    App × AppAction :=
  if ch = .up ∧ 0 < a.firewallSelectedIndex then
    ({ a with firewallSelectedIndex := a.firewallSelectedIndex - 1 }, .none)
  else if ch = .down ∧ a.firewallSelectedIndex + 1 < rows.length then
    ({ a with firewallSelectedIndex := a.firewallSelectedIndex + 1 }, .none)
  else if ch = .char 'a' ∨ ch = .char 'A' then
    match Ipv4.parseCidr (promptInput answer) with
    | .ok (ip, prefixlen) => (a, .mapUpdate ⟨prefixlen.toUInt32, ip⟩)
    | .error _ => (a, .none)
  else if (ch = .char 'd' ∨ ch = .char 'D') ∧ 0 ≤ a.firewallSelectedIndex then
    match rows[a.firewallSelectedIndex.toNat]? with
    | some row => (a, .mapDelete ⟨row.prefixlen, row.ip⟩)
    | Option.none => (a, .none)
  else (a, .none)

/-- A key in the view of the demos. -/
def demosInput (a : App) (ch : Key) (answer : Option Text) : App × AppAction :=
  let input := promptInput answer
  if ch = .char 't' ∨ ch = .char 'T' then
    if input = [] then (a, .none)
    else ({ a with demoCfg := { a.demoCfg with targetIp := input } }, .none)
  else if ch = .char 'o' ∨ ch = .char 'O' then
    match parseU16Input input with
    | some port => ({ a with demoCfg := { a.demoCfg with targetPort := port } }, .none)
    | Option.none => (a, .none)
  else if ch = .char 'r' ∨ ch = .char 'R' then
    match parseU32Input input with
    | some rate => ({ a with demoCfg := { a.demoCfg with ratePps := rate } }, .none)
    | Option.none => (a, .none)
  else if ch = .char 'd' ∨ ch = .char 'D' then
    match parseU32Input input with
    | some duration => ({ a with demoCfg := { a.demoCfg with durationS := duration } }, .none)
    | Option.none => (a, .none)
  else if ch = .char 's' ∨ ch = .char 'S' then
    ({ a with currentView := .threats }, .launchDemo .synFlood a.demoCfg)
  else if ch = .char 'p' ∨ ch = .char 'P' then
    ({ a with currentView := .dashboard }, .launchDemo .pingFlood a.demoCfg)
  else if ch = .char 'u' ∨ ch = .char 'U' then
    ({ a with currentView := .dashboard }, .launchDemo .udpStorm a.demoCfg)
  else (a, .none)

/-- The rows are those the dashboard has at the time, the answer is what a prompt reads. -/
def handleInput (a : App) (rows : List FirewallRow) (ch : Key) (answer : Option Text) :
    App × AppAction :=
  if ch = .char 'q' ∨ ch = .char 'Q' then ({ a with running := false }, .none)
  else if ch = .char '1' then ({ a with currentView := .dashboard }, .none)
  else if ch = .char '2' then ({ a with currentView := .threats }, .none)
  else if ch = .char '3' then ({ a with currentView := .firewall }, .none)
  else if ch = .char '4' then ({ a with currentView := .demos }, .none)
  else
    match a.currentView with
    | .firewall => a.firewallInput rows ch answer
    | .demos => a.demosInput ch answer
    | _ => (a, .none)

end App

/-- The thread that `launch_demo` starts. -/
def launchDemo (stack : Stack) (rounds : ℕ) : DemoName → DemoConfig → DemoRun
  | .synFlood => runSynFlood stack rounds
  | .pingFlood => runPingFlood stack rounds
  | .udpStorm => runUdpStorm stack rounds

/-- What one call of `handle_input` is given. -/
structure KeyPress where
  rows : List FirewallRow
  ch : Key
  answer : Option Text

/-- The dashboard with the actions of the keys so far. -/
structure Session where
  app : App
  actions : List AppAction

namespace Session

def start : Session := ⟨App.start, []⟩

def press (s : Session) (k : KeyPress) : Session :=
  let r := s.app.handleInput k.rows k.ch k.answer
  ⟨r.1, s.actions ++ [r.2]⟩

/-- A sequence of key presses and answers from the start of the dashboard. -/
def play (keys : List KeyPress) : Session := keys.foldl press start

end Session

end KWatch
