import KWatch.Core.EventFormatter

/-! # Events read back from their lines

The JSON line of an event is a well-formed object without a newline. Its members hold the
timestamp and every field of the event, and a reader of such objects gets both back.
-/

namespace KWatch

open Json (Scalar)

/-- The members of the line of an event. -/
def eventMembers (e : KwatchEvent) (timestamp : Text) : List (Text × Scalar) :=
  [("ts".toList, .str timestamp), ("ts_ns".toList, .nat e.tsNs.toNat),
    ("src_ip".toList, .str (Ipv4.format e.srcIp)), ("dst_ip".toList, .str (Ipv4.format e.dstIp)),
    ("sport".toList, .nat e.sport.toNat), ("dport".toList, .nat e.dport.toNat),
    ("protocol".toList, .nat e.protocol.toNat), ("tcp_flags".toList, .nat e.tcpFlags.toNat),
    ("icmp_type".toList, .nat e.icmpType.toNat), ("icmp_code".toList, .nat e.icmpCode.toNat),
    ("ttl".toList, .nat e.ttl.toNat),
    ("action".toList, .str (if e.action = 1 then "drop".toList else "pass".toList))]

/-- The hand-written concatenation is the object of these members. -/
theorem formatEvent_json (e : KwatchEvent) (timestamp : Text) :
    formatEvent e .json timestamp = Json.writeObject (eventMembers e timestamp) := by
  unfold formatEvent
  simp only [eventMembers, Json.writeObject, Json.writeMembers, Json.writeMember, Scalar.write,
    decimal, List.map_cons, List.map_nil, List.intercalate, List.intersperse_cons_cons,
    List.intersperse_singleton, List.flatten_cons, List.flatten_nil, List.append_assoc,
    String.reduceToList, List.cons_append, List.nil_append, List.append_nil]

/-! ### A reader of the lines -/

def strMember (ms : List (Text × Scalar)) (key : String) : Option Text :=
  match ms.lookup key.toList with
  | some (.str s) => some s
  | _ => none

/-- A number below a bound. -/
def natMember (ms : List (Text × Scalar)) (key : String) (bound : ℕ) : Option ℕ :=
  match ms.lookup key.toList with
  | some (.nat n) => if n < bound then some n else none
  | _ => none

def readAction (s : Text) : Option UInt8 :=
  if s = "drop".toList then some 1 else if s = "pass".toList then some 0 else none

theorem natMember_of_lookup {ms : List (Text × Scalar)} {key : String} {n bound : ℕ}
    (h : ms.lookup key.toList = some (.nat n)) (hn : n < bound) :
    natMember ms key bound = some n := by
  simp only [natMember, h, if_pos hn]

/-- The addresses, the ports and the protocol. -/
def readFlowKey (ms : List (Text × Scalar)) : Option KwatchFlowKey := do
  let srcIp ← (strMember ms "src_ip").bind Ipv4.inetPton
  let dstIp ← (strMember ms "dst_ip").bind Ipv4.inetPton
  let sport ← natMember ms "sport" (2 ^ 16)
  let dport ← natMember ms "dport" (2 ^ 16)
  let protocol ← natMember ms "protocol" (2 ^ 8)
  some ⟨srcIp, dstIp, UInt16.ofNat sport, UInt16.ofNat dport, UInt8.ofNat protocol⟩

/-- The timestamp and the event of a line. -/
def readEventLine (line : Text) : Option (Text × KwatchEvent) := do
  let ms ← Json.readObject line
  let timestamp ← strMember ms "ts"
  let tsNs ← natMember ms "ts_ns" (2 ^ 64)
  let key ← readFlowKey ms
  let tcpFlags ← natMember ms "tcp_flags" (2 ^ 8)
  let icmpType ← natMember ms "icmp_type" (2 ^ 8)
  let icmpCode ← natMember ms "icmp_code" (2 ^ 8)
  let ttl ← natMember ms "ttl" (2 ^ 8)
  let action ← (strMember ms "action").bind readAction
  some (timestamp, ⟨UInt64.ofNat tsNs, key.srcIp, key.dstIp, key.sport, key.dport, key.protocol,
    UInt8.ofNat tcpFlags, UInt8.ofNat ttl, action, UInt8.ofNat icmpType, UInt8.ofNat icmpCode⟩)

theorem isPlain_of_mem_format {ip : UInt32} {c : Char} (h : c ∈ Ipv4.format ip) :
    Json.isPlain c = true := by
  rcases Ipv4.mem_format h with hdigit | rfl
  · exact Json.isPlain_of_isDigit hdigit
  · decide

theorem plainMembers_eventMembers (e : KwatchEvent) {timestamp : Text}
    (h : ∀ c ∈ timestamp, Json.isPlain c = true) :
    Json.PlainMembers (eventMembers e timestamp) := by
  have hkey : ∀ m ∈ eventMembers e timestamp, ∀ c ∈ m.1, Json.isPlain c = true := by
    simp [eventMembers, Json.isPlain]
  have hval : ∀ m ∈ eventMembers e timestamp, m.2.Plain := by
    have haction : ∀ c ∈ (if e.action = 1 then "drop".toList else "pass".toList),
        Json.isPlain c = true := by
      split <;> simp [Json.isPlain]
    simp only [eventMembers, List.forall_mem_cons, Scalar.Plain, List.not_mem_nil, true_and,
      false_imp_iff, implies_true, and_true]
    exact ⟨h, fun c hc => isPlain_of_mem_format hc, fun c hc => isPlain_of_mem_format hc, haction⟩
  exact fun m hm => ⟨hkey m hm, hval m hm⟩

theorem isObject_formatEvent (e : KwatchEvent) {timestamp : Text}
    (h : ∀ c ∈ timestamp, Json.isPlain c = true) :
    Json.IsObject (eventMembers e timestamp) (formatEvent e .json timestamp) := by
  rw [formatEvent_json]
  exact Json.isObject_writeObject (plainMembers_eventMembers e h)

theorem readFlowKey_eventMembers (e : KwatchEvent) (timestamp : Text) :
    readFlowKey (eventMembers e timestamp) =
      some ⟨e.srcIp, e.dstIp, e.sport, e.dport, e.protocol⟩ := by
  set ms := eventMembers e timestamp
  have hsrc : strMember ms "src_ip" = some (Ipv4.format e.srcIp) := rfl
  have hdst : strMember ms "dst_ip" = some (Ipv4.format e.dstIp) := rfl
  have hsport : natMember ms "sport" (2 ^ 16) = some e.sport.toNat :=
    natMember_of_lookup rfl e.sport.toNat_lt
  have hdport : natMember ms "dport" (2 ^ 16) = some e.dport.toNat :=
    natMember_of_lookup rfl e.dport.toNat_lt
  have hprotocol : natMember ms "protocol" (2 ^ 8) = some e.protocol.toNat :=
    natMember_of_lookup rfl e.protocol.toNat_lt
  simp only [readFlowKey, hsrc, hdst, hsport, hdport, hprotocol, Ipv4.inetPton_format,
    Option.bind_eq_bind, Option.bind_some, UInt16.ofNat_toNat, UInt8.ofNat_toNat]

theorem readEventLine_formatEvent {e : KwatchEvent} (haction : e.action = 0 ∨ e.action = 1)
    {timestamp : Text} (h : ∀ c ∈ timestamp, Json.isPlain c = true) :
    readEventLine (formatEvent e .json timestamp) = some (timestamp, e) := by
  have hread := (isObject_formatEvent e h).readObject
  have hkey := readFlowKey_eventMembers e timestamp
  set ms := eventMembers e timestamp
  have hts : strMember ms "ts" = some timestamp := rfl
  have htsNs : natMember ms "ts_ns" (2 ^ 64) = some e.tsNs.toNat :=
    natMember_of_lookup rfl e.tsNs.toNat_lt
  have htcpFlags : natMember ms "tcp_flags" (2 ^ 8) = some e.tcpFlags.toNat :=
    natMember_of_lookup rfl e.tcpFlags.toNat_lt
  have hicmpType : natMember ms "icmp_type" (2 ^ 8) = some e.icmpType.toNat :=
    natMember_of_lookup rfl e.icmpType.toNat_lt
  have hicmpCode : natMember ms "icmp_code" (2 ^ 8) = some e.icmpCode.toNat :=
    natMember_of_lookup rfl e.icmpCode.toNat_lt
  have httl : natMember ms "ttl" (2 ^ 8) = some e.ttl.toNat :=
    natMember_of_lookup rfl e.ttl.toNat_lt
  have hact : (strMember ms "action").bind readAction = some e.action := by
    have hs : strMember ms "action" =
        some (if e.action = 1 then "drop".toList else "pass".toList) := rfl
    rw [hs]
    rcases haction with h0 | h1
    · rw [h0]; rfl
    · rw [h1]; rfl
  simp only [readEventLine, hread, hkey, hts, htsNs, htcpFlags, hicmpType, hicmpCode, httl, hact,
    Option.bind_eq_bind, Option.bind_some, UInt64.ofNat_toNat, UInt8.ofNat_toNat]

/-- Every line is read back, the bytes that hold no field do not matter, and a short buffer is
refused. -/
theorem ndjson_round_trip :
    (∀ (e : KwatchEvent) (timestamp : Text) (bytes : List UInt8),
      (e.action = 0 ∨ e.action = 1) → (∀ c ∈ timestamp, Json.isPlain c = true) →
      sizeofKwatchEvent ≤ bytes.length → bytes.take sizeofEventFields = eventBytes e →
      ∃ line, parseAndFormatEvent bytes .json timestamp = .ok line ∧ '\n' ∉ line ∧
        Json.IsObject (eventMembers e timestamp) line ∧
        readEventLine line = some (timestamp, e)) ∧
    (∀ (bytes bytes' : List UInt8) (timestamp : Text), sizeofKwatchEvent ≤ bytes.length →
      sizeofKwatchEvent ≤ bytes'.length →
      bytes.take sizeofEventFields = bytes'.take sizeofEventFields →
      parseAndFormatEvent bytes .json timestamp = parseAndFormatEvent bytes' .json timestamp) ∧
    ∀ (bytes : List UInt8) (timestamp : Text), bytes.length < sizeofKwatchEvent →
      parseAndFormatEvent bytes .json timestamp = .error "event buffer too small" := by
  refine ⟨fun e timestamp bytes haction hplain hlen hbytes => ?_,
    fun bytes bytes' timestamp hlen hlen' hbytes => ?_, fun bytes timestamp hlen => ?_⟩
  · have hobj := isObject_formatEvent e hplain
    refine ⟨formatEvent e .json timestamp, ?_, ?_, hobj, readEventLine_formatEvent haction hplain⟩
    · rw [parseAndFormatEvent_of_le hlen, ← memcpyEvent_take, hbytes, memcpyEvent_eventBytes]
    · intro hnl
      exact absurd (hobj.no_control '\n' hnl) (by decide)
  · rw [parseAndFormatEvent_of_le hlen, parseAndFormatEvent_of_le hlen', ← memcpyEvent_take,
      hbytes, memcpyEvent_take]
  · simp only [parseAndFormatEvent, parseRingbufEvent, if_pos hlen]

theorem ndjson_round_trip_padded :
    let e : KwatchEvent := ⟨123456789, 0x0100007F, 0x0200007F, 1234, 80, 6, 0x12, 64, 0, 0, 0⟩
    let timestamp := "2026-01-01T00:00:00Z".toList
    ∃ line, parseAndFormatEvent (eventBytes e ++ [1, 2, 3, 4, 5, 6, 7]) .json timestamp =
        .ok line ∧ '\n' ∉ line ∧ Json.IsObject (eventMembers e timestamp) line ∧
      readEventLine line = some (timestamp, e) :=
  ndjson_round_trip.1 _ _ _ (.inl rfl) (by simp [Json.isPlain]) (by decide) rfl

end KWatch
