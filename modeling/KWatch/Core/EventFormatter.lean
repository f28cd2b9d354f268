import KWatch.Library.Json
import KWatch.Util.Ipv4
import KWatch.Xdp.Program

/-! # Events as lines

The functions of `src/core/event_formatter.h`: a ring buffer record is copied into an event, and
an event is printed as a line of text or as a JSON object. The object is put together by hand;
here it is read back.
-/

namespace KWatch

/-! ### Records -/

/-- `sizeof(kwatch_event)`, with six bytes of padding after the fields. -/
def sizeofKwatchEvent : ℕ := 32

/-- The bytes that hold fields. -/
def sizeofEventFields : ℕ := 26

/-- The native integer of `n` bytes at an offset. -/
def nativeField (bytes : List UInt8) (off n : ℕ) : ℕ := ofNativeBytes ((bytes.drop off).take n)

/-- The event that `memcpy` leaves in the struct. -/
def memcpyEvent (bytes : List UInt8) : KwatchEvent where
  tsNs := UInt64.ofNat (nativeField bytes 0 8)
  srcIp := UInt32.ofNat (nativeField bytes 8 4)
  dstIp := UInt32.ofNat (nativeField bytes 12 4)
  sport := UInt16.ofNat (nativeField bytes 16 2)
  dport := UInt16.ofNat (nativeField bytes 18 2)
  protocol := UInt8.ofNat (nativeField bytes 20 1)
  tcpFlags := UInt8.ofNat (nativeField bytes 21 1)
  ttl := UInt8.ofNat (nativeField bytes 22 1)
  action := UInt8.ofNat (nativeField bytes 23 1)
  icmpType := UInt8.ofNat (nativeField bytes 24 1)
  icmpCode := UInt8.ofNat (nativeField bytes 25 1)

def parseRingbufEvent (bytes : List UInt8) : Except String KwatchEvent :=
  if bytes.length < sizeofKwatchEvent then .error "event buffer too small"
  else .ok (memcpyEvent bytes)

/-- The field bytes of an event as they lie in memory. -/
def eventBytes (e : KwatchEvent) : List UInt8 :=
  nativeBytes 8 e.tsNs.toNat ++ nativeBytes 4 e.srcIp.toNat ++ nativeBytes 4 e.dstIp.toNat ++
    nativeBytes 2 e.sport.toNat ++ nativeBytes 2 e.dport.toNat ++
    [e.protocol, e.tcpFlags, e.ttl, e.action, e.icmpType, e.icmpCode]

/-! ### Lines -/

inductive EventOutputFormat | text | json
  deriving DecidableEq, Repr

def eventProtoName (protocol : UInt8) : Text :=
  if protocol = 1 then "ICMP".toList
  else if protocol = 6 then "TCP".toList
  else if protocol = 17 then "UDP".toList
  else "OTHER".toList

def formatTcpFlags (flags : UInt8) : Text :=
  let out := (if flags &&& 0x02 ≠ 0 then ['S'] else []) ++
    (if flags &&& 0x10 ≠ 0 then ['A'] else []) ++ (if flags &&& 0x08 ≠ 0 then ['P'] else []) ++
    (if flags &&& 0x01 ≠ 0 then ['F'] else []) ++ (if flags &&& 0x04 ≠ 0 then ['R'] else [])
  if out = [] then ['-'] else out

/-- `std::to_string` of an unsigned integer; a byte is promoted to `int` first. -/
def decimal (n : ℕ) : Text := Nat.toDigits 10 n

def formatEvent (event : KwatchEvent) (fmt : EventOutputFormat) (timestamp : Text) : Text :=
  let src := Ipv4.format event.srcIp
  let dst := Ipv4.format event.dstIp
  match fmt with
  | .json =>
    "\x7b\"ts\":\"".toList ++ timestamp ++ "\",\"ts_ns\":".toList ++ decimal event.tsNs.toNat ++
      ",\"src_ip\":\"".toList ++ src ++ "\",\"dst_ip\":\"".toList ++ dst ++
      "\",\"sport\":".toList ++ decimal event.sport.toNat ++
      ",\"dport\":".toList ++ decimal event.dport.toNat ++
      ",\"protocol\":".toList ++ decimal event.protocol.toNat ++
      ",\"tcp_flags\":".toList ++ decimal event.tcpFlags.toNat ++
      ",\"icmp_type\":".toList ++ decimal event.icmpType.toNat ++
      ",\"icmp_code\":".toList ++ decimal event.icmpCode.toNat ++
      ",\"ttl\":".toList ++ decimal event.ttl.toNat ++ ",\"action\":\"".toList ++
      (if event.action = 1 then "drop".toList else "pass".toList) ++ "\"\x7d".toList
  | .text =>
    timestamp ++ " ".toList ++ eventProtoName event.protocol ++ " ".toList ++ src ++
      ":".toList ++ decimal event.sport.toNat ++ " -> ".toList ++ dst ++ ":".toList ++
      decimal event.dport.toNat ++ " flags=".toList ++ formatTcpFlags event.tcpFlags ++
      " ttl=".toList ++ decimal event.ttl.toNat ++
      (if event.protocol = 1 then " type=".toList ++ decimal event.icmpType.toNat ++
        " code=".toList ++ decimal event.icmpCode.toNat else [])

def parseAndFormatEvent (bytes : List UInt8) (fmt : EventOutputFormat) (timestamp : Text) :
    Except String Text :=
  match parseRingbufEvent bytes with
  | .error err => .error err
  | .ok event => .ok (formatEvent event fmt timestamp)

/-! ### Reading a record -/

theorem nativeField_take (bytes : List UInt8) {off n m : ℕ} (h : off + n ≤ m) :
    nativeField (bytes.take m) off n = nativeField bytes off n := by
  rw [nativeField, nativeField, List.drop_take, List.take_take, min_eq_left (by omega)]

/-- Only the field bytes matter. -/
theorem memcpyEvent_take (bytes : List UInt8) :
    memcpyEvent (bytes.take sizeofEventFields) = memcpyEvent bytes := by
  simp only [memcpyEvent, sizeofEventFields]
  congr 2 <;> exact nativeField_take bytes (by decide)

theorem memcpyEvent_eventBytes (e : KwatchEvent) : memcpyEvent (eventBytes e) = e := by
  have hts := e.tsNs.toNat_lt
  have hsrc := e.srcIp.toNat_lt
  have hdst := e.dstIp.toNat_lt
  have hsport := e.sport.toNat_lt
  have hdport := e.dport.toNat_lt
  cases e
  simp (disch := omega) [memcpyEvent, nativeField, eventBytes, drop_nativeBytes_append,
    take_nativeBytes_append, ofNativeBytes_nativeBytes, ofNativeBytes, Nat.mod_eq_of_lt]

theorem parseAndFormatEvent_of_le {bytes : List UInt8} (h : sizeofKwatchEvent ≤ bytes.length)
    (fmt : EventOutputFormat) (timestamp : Text) :
    parseAndFormatEvent bytes fmt timestamp =
      .ok (formatEvent (memcpyEvent bytes) fmt timestamp) := by
  simp only [parseAndFormatEvent, parseRingbufEvent, if_neg (not_lt.mpr h)]

end KWatch
