import KWatch.Library.Prog
import KWatch.Util.Ipv4

/-! # Demo scenarios

The traffic generators of `src/demo`. A scenario checks its target, opens a socket, converts the
target a second time and sends a packet per round until its time is over. The system calls have
results of their own; a run that has had no time to end yet is cut off after some rounds.
-/

namespace KWatch

open Prog

structure DemoConfig where
  targetIp : Text
  targetPort : UInt16
  ratePps : UInt32
  durationS : UInt32
  overrideSafety : Bool
  deriving DecidableEq, Repr

/-- `(ntohl(s_addr) & 0xff000000) == 0x7f000000`. -/
def isIpv4Loopback (addr : UInt32) : Bool :=
  UInt32.ofNat (be32ToCpu addr) &&& 0xff000000 == 0x7f000000

def validateTarget (ip : Text) (overrideSafety : Bool) : Except Text Unit :=
  match Ipv4.inetPton (Ipv4.cStr ip) with
  | none => .error ("Invalid IPv4 target address ".toList ++ ip)
  | some addr =>
    if !isIpv4Loopback addr && !overrideSafety then
      .error ("Refusing to target non-loopback address ".toList ++ ip ++
        " without --i-know-what-im-doing".toList)
    else .ok ()

/-! ### Checksums -/

/-- Add a word in network order and take the carry away. -/
def checksumAdd (acc : ℕ) (word : UInt16) : ℕ :=
  let acc := acc + (bpfNtohs word).toNat
  if 0xffff < acc then acc - 0xffff else acc

def checksumLoop : ℕ → List UInt8 → ℕ
  | acc, b₀ :: b₁ :: rest => checksumLoop (checksumAdd acc (le16 b₀ b₁)) rest
  | acc, [b] => checksumAdd acc (le16 b 0)
  | acc, [] => acc

/-- The checksum of `ping_flood.cpp`. -/
def checksum (data : List UInt8) : UInt16 :=
  bpfNtohs (~~~UInt16.ofNat (checksumLoop 0xffff data))

def csumLoop : ℕ → List UInt8 → ℕ
  | sum, b₀ :: b₁ :: rest => csumLoop (sum + (le16 b₀ b₁).toNat) rest
  | sum, [b] => sum + b.toNat
  | sum, [] => sum

/-- The checksum of `syn_flood.cpp`. -/
def csum (data : List UInt8) : UInt16 :=
  let sum := csumLoop 0 data
  let sum := sum / 65536 + sum % 65536
  let sum := sum + sum / 65536
  ~~~UInt16.ofNat sum

/-! ### Packets -/

def echoHeader (check seq : UInt16) : List UInt8 :=
  [8, 0] ++ nativeBytes 2 check.toNat ++ wire16 1234 ++ wire16 seq

def pingPacket (seq : UInt16) : List UInt8 :=
  let payload := List.replicate 56 0
  echoHeader (checksum (echoHeader 0 seq ++ payload)) seq ++ payload

def udpPacket : List UInt8 := List.replicate 1024 65

def synIpHeader (check : UInt16) (daddr : UInt32) : List UInt8 :=
  [0x45, 0] ++ wire16 40 ++ wire16 54321 ++ [0, 0, 255, 6] ++ nativeBytes 2 check.toNat ++
    [127, 0, 0, 1] ++ addrBytes daddr

def synTcpHeader (check sport dport : UInt16) : List UInt8 :=
  wire16 sport ++ wire16 dport ++ List.replicate 8 0 ++ [0x50, 0x02] ++ wire16 5840 ++
    nativeBytes 2 check.toNat ++ [0, 0]

/-- The header that only the checksum covers, with 0 in its placeholder. -/
def pseudoHeader (daddr : UInt32) : List UInt8 :=
  [127, 0, 0, 1] ++ addrBytes daddr ++ [0, 6] ++ wire16 20

def synPacket (daddr : UInt32) (dport sport : UInt16) : List UInt8 :=
  synIpHeader (csum (synIpHeader 0 daddr)) daddr ++
    synTcpHeader (csum (pseudoHeader daddr ++ synTcpHeader 0 sport dport)) sport dport

/-- `sport_base++`, which starts again at 1024. -/
def nextSport (sport : UInt16) : UInt16 := if sport + 1 = 0 then 1024 else sport + 1

/-! ### System calls -/

inductive SocketKind | rawIcmp | rawTcp | udp
  deriving DecidableEq, Repr

inductive SocketError
  | EPERM
  | EACCES
  | other (strerror : Text)
  deriving DecidableEq, Repr

/-- The destination of a packet, in network order. -/
structure SockaddrIn where
  addr : UInt32
  port : UInt16
  deriving DecidableEq, Repr

inductive DemoCall
  | socket (kind : SocketKind)
  | setHdrincl
  | elapsedSeconds
  | sendto (dest : SockaddrIn) (packet : List UInt8)
  | sleepFor (ns : ℕ)

abbrev DemoCall.Result : DemoCall → Type
  | .socket _ | .setHdrincl => Option SocketError
  | .elapsedSeconds => ℕ
  | .sendto _ _ => Bool
  | .sleepFor _ => Unit

/-- How a run stands: cut off, trapped in the division by the rate, or over. -/
inductive DemoEnd (α : Type)
  | running
  | divisionByZero
  | returned (a : α)
  deriving DecidableEq, Repr

def DemoEnd.map {α β : Type} (f : α → β) : DemoEnd α → DemoEnd β
  | running => running
  | divisionByZero => divisionByZero
  | returned a => returned (f a)

abbrev DemoProg := Prog DemoCall DemoCall.Result

abbrev DemoRun := DemoProg (DemoEnd (Except Text Unit))

/-- What the stack holds where a scenario does not always write its destination. -/
structure Stack where
  addr : UInt32
  port : UInt16

/-- The address that the second `inet_pton` leaves in the destination. -/
def destAddr (stack : Stack) (cfg : DemoConfig) : UInt32 :=
  (Ipv4.inetPton (Ipv4.cStr cfg.targetIp)).getD stack.addr

/-! ### Scenarios -/

/-- The rounds that the scenarios share: look at the clock, send, and sleep. -/
def floodLoop (cfg : DemoConfig) (dest : SockaddrIn) (packet : UInt16 → List UInt8)
    (next : UInt16 → UInt16) (checkSend : Bool) : ℕ → UInt16 → DemoRun
  | 0, _ => pure .running
  | rounds + 1, seq => do
    let elapsed ← step .elapsedSeconds
    if cfg.durationS.toNat ≤ elapsed then pure (.returned (.ok ()))
    else
      let sent ← step (.sendto dest (packet seq))
      if checkSend && !sent then pure (.returned (.error "sendto failed".toList))
      else
        let _ ← step (.sleepFor (1000000000 / cfg.ratePps.toNat))
        floodLoop cfg dest packet next checkSend rounds (next seq)

/-- The rounds start with the division by the rate. -/
def flood (cfg : DemoConfig) (dest : SockaddrIn) (packet : UInt16 → List UInt8)
    (next : UInt16 → UInt16) (checkSend : Bool) (rounds : ℕ) (seq : UInt16) : DemoRun :=
  if cfg.ratePps = 0 then pure .divisionByZero
  else floodLoop cfg dest packet next checkSend rounds seq

def runPingFlood (stack : Stack) (rounds : ℕ) (cfg : DemoConfig) : DemoRun :=
  match validateTarget cfg.targetIp cfg.overrideSafety with
  | .error err => pure (.returned (.error err))
  | .ok () => do
    let failure : Option SocketError ← step (DemoCall.socket .rawIcmp)
    match failure with
    | some (.other strerror) =>
      pure (.returned (.error ("Failed to create raw ICMP socket: ".toList ++ strerror)))
    | some _ => pure (.returned (.error
        "Permission denied creating raw ICMP socket. Need root or CAP_NET_RAW.".toList))
    | none =>
      -- the port of the destination is not written
      flood cfg ⟨destAddr stack cfg, stack.port⟩ pingPacket (· + 1) false rounds 0

def runSynFlood (stack : Stack) (rounds : ℕ) (cfg : DemoConfig) : DemoRun :=
  match validateTarget cfg.targetIp cfg.overrideSafety with
  | .error err => pure (.returned (.error err))
  | .ok () => do
    let failure : Option SocketError ← step (DemoCall.socket .rawTcp)
    match failure with
    | some (.other strerror) =>
      pure (.returned (.error ("Failed to create raw TCP socket: ".toList ++ strerror)))
    | some _ => pure (.returned (.error
        "Permission denied creating raw TCP socket. Need root or CAP_NET_RAW.".toList))
    | none =>
      let failure : Option SocketError ← step DemoCall.setHdrincl
      match failure with
      | some (.other _) => pure (.returned (.error "Failed to set IP_HDRINCL".toList))
      | some _ => pure (.returned (.error
          "Permission denied enabling IP_HDRINCL. Need root or CAP_NET_RAW.".toList))
      | none =>
        let daddr := destAddr stack cfg
        flood cfg ⟨daddr, bpfNtohs cfg.targetPort⟩ (synPacket daddr cfg.targetPort) nextSport true
          rounds 1024

def runUdpStorm (stack : Stack) (rounds : ℕ) (cfg : DemoConfig) : DemoRun :=
  match validateTarget cfg.targetIp cfg.overrideSafety with
  | .error err => pure (.returned (.error err))
  | .ok () => do
    let failure : Option SocketError ← step (DemoCall.socket .udp)
    match failure with
    | some _ => pure (.returned (.error "Failed to create UDP socket".toList))
    | none =>
      flood cfg ⟨destAddr stack cfg, bpfNtohs cfg.targetPort⟩ (fun _ => udpPacket) id false
        rounds 0

end KWatch
