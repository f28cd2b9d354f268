import KWatch.Wire.Bytes

/-! # Frames with an IPv4 header

The grammar the packet program is meant to accept, stated without the program: an Ethernet
header with at most one VLAN tag, and in an IPv4 frame an IPv4 header whose options fill the
header length, followed by arbitrary bytes.
-/

namespace KWatch

def ETH_P_IP : UInt16 := 0x0800
def ETH_P_IPV6 : UInt16 := 0x86DD
def ETH_P_ARP : UInt16 := 0x0806
def ETH_P_8021Q : UInt16 := 0x8100
def ETH_P_8021AD : UInt16 := 0x88A8

/-- The two tag protocols of a VLAN tag. -/
inductive Tpid | dot1Q | dot1AD
  deriving DecidableEq, Repr

def Tpid.ethType : Tpid → UInt16
  | .dot1Q => ETH_P_8021Q
  | .dot1AD => ETH_P_8021AD

/-- An Ethernet frame with at most one VLAN tag. -/
structure EthFrame where
  macs : Frame
  macs_length : macs.length = 12
  tag : Option (Tpid × UInt16)
  ethType : UInt16
  untagged : tag = none → ethType ≠ ETH_P_8021Q ∧ ethType ≠ ETH_P_8021AD
  payload : Frame

namespace EthFrame

/-- The bytes a tag puts before the EtherType. -/
def tagBytes : Option (Tpid × UInt16) → Frame
  | none => []
  | some (tpid, tci) => wire16 tpid.ethType ++ wire16 tci

def header (E : EthFrame) : Frame := E.macs ++ tagBytes E.tag ++ wire16 E.ethType

def encode (E : EthFrame) : Frame := E.header ++ E.payload

end EthFrame

/-- An IPv4 header with its options. -/
structure Ipv4Header where
  ihl : ℕ
  ihl_ge : 5 ≤ ihl
  ihl_le : ihl ≤ 15
  tos : UInt8
  totLen : UInt16
  ident : UInt16
  fragOff : UInt16
  ttl : UInt8
  protocol : UInt8
  check : UInt16
  saddr : UInt32
  daddr : UInt32
  options : Frame
  options_length : options.length = 4 * (ihl - 5)

namespace Ipv4Header

def encode (H : Ipv4Header) : Frame :=
  UInt8.ofNat (64 + H.ihl) :: H.tos :: (wire16 H.totLen ++ wire16 H.ident ++ wire16 H.fragOff ++
    (H.ttl :: H.protocol :: (wire16 H.check ++ addrBytes H.saddr ++ addrBytes H.daddr ++ H.options)))

@[simp] theorem length_encode (H : Ipv4Header) : H.encode.length = 4 * H.ihl := by
  have := H.ihl_ge
  simp only [encode, List.length_cons, List.length_append, length_wire16, length_addrBytes,
    H.options_length]
  omega

end Ipv4Header

/-- A complete IPv4 frame: link header, IPv4 header, and whatever follows it. -/
structure Ipv4Frame where
  macs : Frame
  macs_length : macs.length = 12
  tag : Option (Tpid × UInt16)
  ip : Ipv4Header
  rest : Frame

namespace Ipv4Frame

def toEth (F : Ipv4Frame) : EthFrame where
  macs := F.macs
  macs_length := F.macs_length
  tag := F.tag
  ethType := ETH_P_IP
  untagged _ := by decide
  payload := F.ip.encode ++ F.rest

def encode (F : Ipv4Frame) : Frame := F.toEth.encode

end Ipv4Frame

end KWatch
