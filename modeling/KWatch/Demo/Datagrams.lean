import KWatch.Demo.Checksum
import KWatch.Demo.Loopback
import KWatch.Wire.Transport
import KWatch.Xdp.Program

/-! # The datagrams of the SYN and the ICMP scenario

The SYN scenario builds the IPv4 and the TCP header of every datagram itself. Each datagram it
sends, in whatever round, is a complete SYN packet from `127.0.0.1` whose two checksums a receiver
accepts. In both scenarios the datagrams of a run carry the numbers of their rounds.
-/

namespace KWatch

open Prog OnesComplement

/-- The check of a receiver: with its checksum in place, a buffer sums up to the largest word. -/
def Verifies (data : List UInt8) : Prop := sum 0xffff (nativeWords data) = 0xffff

/-- `127.0.0.1` as it lies in memory. -/
def localhost : UInt32 := 0x0100007F

/-- The headers of a SYN packet without options from `127.0.0.1`. -/
structure SynHeaders (daddr : UInt32) (dport : UInt16) (H : Ipv4Header) (T : TcpHeader) :
    Prop where
  bare : H.ihl = 5
  whole : H.fragOff = 0
  totLen : H.totLen.toNat = H.encode.length + T.encode.length
  protocol : H.protocol = IPPROTO_TCP
  saddr : H.saddr = localhost
  daddr : H.daddr = daddr
  dest : T.dest = dport
  flags : T.flags = 0x02
  source : 1024 ≤ T.source.toNat

/-- A datagram of these headers and nothing else. -/
def SynDatagram (daddr : UInt32) (dport : UInt16) (packet : List UInt8) : Prop :=
  ∃ H T, SynHeaders daddr dport H T ∧ packet = H.encode ++ T.encode

/-- A receiver accepts both checksums of the datagram: that of the 20 bytes of its IPv4 header, and
that of the rest behind the pseudo header. -/
structure ChecksumsVerify (daddr : UInt32) (packet : List UInt8) : Prop where
  ip : Verifies (packet.take 20)
  tcp : Verifies (pseudoHeader daddr ++ packet.drop 20)

/-! ### Checksums in their fields -/

/-- The complement of the sum in the place of a word that was 0. -/
theorem verifies_field {before after : List UInt8} {check : UInt16}
    (hbefore : before.length % 2 = 0) (hdata : ∃ b ∈ before ++ [0, 0] ++ after, b ≠ 0)
    (hcheck : check.toNat = 0xffff - sum 0xffff (nativeWords (before ++ [0, 0] ++ after))) :
    Verifies (before ++ nativeBytes 2 check.toNat ++ after) := by
  have hzero : nativeWords (before ++ [0, 0] ++ after) =
      nativeWords before ++ 0 :: nativeWords after := by
    rw [List.append_assoc, nativeWords, words_append hbefore]
    rfl
  rw [Verifies, List.append_assoc, nativeWords, words_append hbefore]
  change sum 0xffff (nativeWords before ++ nativeWords (nativeBytes 2 _ ++ after)) = 0xffff
  rw [words_nativeBytes, hcheck, hzero]
  apply sum_complement
  · rw [← hzero]
    exact words_le _
  · rw [← hzero]
    exact exists_word_pos (fun _ _ => le16_pos) hdata

theorem nativeBytes_zero : nativeBytes 2 0 = [0, 0] := rfl

theorem verifies_synIpHeader (daddr : UInt32) :
    Verifies (synIpHeader (csum (synIpHeader 0 daddr)) daddr) := by
  have hdata : ∃ b ∈ [0x45, 0] ++ wire16 40 ++ wire16 54321 ++ [0, 0, 255, 6] ++ [0, 0] ++
      ([127, 0, 0, 1] ++ addrBytes daddr), b ≠ 0 := ⟨0x45, by simp, by decide⟩
  have h := verifies_field rfl hdata (toNat_csum (by simp) hdata)
  simpa [synIpHeader, nativeBytes_zero] using h

theorem verifies_synTcpHeader (daddr : UInt32) (sport dport : UInt16) :
    Verifies (pseudoHeader daddr ++
      synTcpHeader (csum (pseudoHeader daddr ++ synTcpHeader 0 sport dport)) sport dport) := by
  have hdata : ∃ b ∈ pseudoHeader daddr ++ wire16 sport ++ wire16 dport ++
      List.replicate 8 0 ++ [0x50, 0x02] ++ wire16 5840 ++ [0, 0] ++ [0, 0], b ≠ 0 :=
    ⟨127, by simp [pseudoHeader], by decide⟩
  have hcheck := toNat_csum (by simp [pseudoHeader]) hdata
  have h := verifies_field (by simp [pseudoHeader]) hdata hcheck
  simpa [synTcpHeader, nativeBytes_zero] using h

/-! ### Headers of the grammar -/

/-- A word as it is written natively is its swapped value on the wire. -/
theorem wire16_bpfNtohs (x : UInt16) : wire16 (bpfNtohs x) = nativeBytes 2 x.toNat := by
  have hx : x = le16 (UInt8.ofNat x.toNat) (UInt8.ofNat (x.toNat / 256)) := by
    have hlt := x.toNat_lt
    apply UInt16.toNat_inj.mp
    rw [toNat_le16, UInt8.toNat_ofNat', UInt8.toNat_ofNat']
    omega
  conv_lhs => rw [hx]
  rw [wire16_bpfNtohs_le16]
  rfl

theorem addrBytes_localhost : addrBytes localhost = [127, 0, 0, 1] := rfl

theorem toNat_nextSport (sport : UInt16) :
    (nextSport sport).toNat = if sport.toNat = 65535 then 1024 else sport.toNat + 1 := by
  have hlt := sport.toNat_lt
  have hadd : (sport + 1).toNat = (sport.toNat + 1) % 65536 := UInt16.toNat_add sport 1
  have hzero : sport + 1 = 0 ↔ (sport + 1).toNat = 0 := UInt16.toNat_inj.symm
  rw [nextSport]
  split
  · rename_i h
    have h0 := hzero.mp h
    rw [if_pos (by omega)]
    rfl
  · rename_i h
    have h0 := mt hzero.mpr h
    rw [if_neg (by omega), hadd]
    omega

/-- Every port that the scenario takes is above the reserved ones. -/
theorem nextSport_ge {sport : UInt16} (h : 1024 ≤ sport.toNat) :
    1024 ≤ (nextSport sport).toNat := by
  rw [toNat_nextSport]
  split <;> omega

theorem synHeaders_synPacket (daddr : UInt32) (dport : UInt16) {sport : UInt16}
    (hsport : 1024 ≤ sport.toNat) :
    ∃ H T, SynHeaders daddr dport H T ∧ synPacket daddr dport sport = H.encode ++ T.encode ∧
      T.source = sport := by
  let check := csum (pseudoHeader daddr ++ synTcpHeader 0 sport dport)
  let H : Ipv4Header := ⟨5, le_rfl, by decide, 0, 40, 54321, 0, 255, 6,
    bpfNtohs (csum (synIpHeader 0 daddr)), localhost, daddr, [], rfl⟩
  let T : TcpHeader := ⟨sport, dport, List.replicate 8 0 ++ [0x50], rfl, 0x02,
    wire16 5840 ++ nativeBytes 2 check.toNat ++ [0, 0], by simp⟩
  refine ⟨H, T, ?_, ?_, rfl⟩
  · constructor
    · rfl
    · rfl
    · rw [H.length_encode, T.length_encode]
      rfl
    · rfl
    · rfl
    · rfl
    · rfl
    · rfl
    · exact hsport
  · simp only [synPacket, synIpHeader, synTcpHeader, Ipv4Header.encode, TcpHeader.encode, H, T,
      wire16_bpfNtohs, addrBytes_localhost, List.append_assoc, List.cons_append, List.nil_append,
      List.append_nil]
    rfl

theorem synDatagram_synPacket (daddr : UInt32) (dport : UInt16) {sport : UInt16}
    (hsport : 1024 ≤ sport.toNat) : SynDatagram daddr dport (synPacket daddr dport sport) := by
  obtain ⟨H, T, hheaders, hpacket, -⟩ := synHeaders_synPacket daddr dport hsport
  exact ⟨H, T, hheaders, hpacket⟩

theorem length_synIpHeader (check : UInt16) (daddr : UInt32) :
    (synIpHeader check daddr).length = 20 := by
  simp [synIpHeader]

theorem checksumsVerify_synPacket (daddr : UInt32) (dport sport : UInt16) :
    ChecksumsVerify daddr (synPacket daddr dport sport) := by
  constructor
  · rw [synPacket, List.take_left' (length_synIpHeader _ _)]
    exact verifies_synIpHeader daddr
  · rw [synPacket, List.drop_left' (length_synIpHeader _ _)]
    exact verifies_synTcpHeader daddr sport dport

/-! ### Every round -/

/-- The calls of the rounds, when every datagram is as expected. -/
theorem uses_floodLoop_of {ok : DemoCall → Prop} {I : UInt16 → Prop} {cfg : DemoConfig}
    {dest : SockaddrIn} {packet : UInt16 → List UInt8} {next : UInt16 → UInt16} {checkSend : Bool}
    (helapsed : ok .elapsedSeconds) (hsleep : ∀ ns, ok (.sleepFor ns))
    (hnext : ∀ seq, I seq → I (next seq)) (hsend : ∀ seq, I seq → ok (.sendto dest (packet seq)))
    (rounds : ℕ) {seq : UInt16} (hseq : I seq) :
    Uses ok (floodLoop cfg dest packet next checkSend rounds seq) := by
  induction rounds generalizing seq with
  | zero => exact uses_ret _
  | succ rounds ih =>
    simp only [floodLoop, step_bind, uses_call]
    refine ⟨helapsed, fun elapsed => ?_⟩
    split
    · exact uses_ret _
    · refine ⟨hsend seq hseq, fun sent => ?_⟩
      dsimp only
      split
      · exact uses_ret _
      · exact ⟨hsleep _, fun _ => ih (hnext seq hseq)⟩

/-- The datagrams that a call sends, and where to. -/
def Sends (P : SockaddrIn → List UInt8 → Prop) : DemoCall → Prop
  | .sendto dest packet => P dest packet
  | _ => True

/-- What holds of the datagrams of the ports above the reserved ones holds of all that is sent. -/
theorem uses_runSynFlood {P : SockaddrIn → List UInt8 → Prop} {stack : Stack} {cfg : DemoConfig}
    (hP : ∀ sport : UInt16, 1024 ≤ sport.toNat →
      P ⟨destAddr stack cfg, bpfNtohs cfg.targetPort⟩
        (synPacket (destAddr stack cfg) cfg.targetPort sport)) (rounds : ℕ) :
    Uses (Sends P) (runSynFlood stack rounds cfg) := by
  unfold runSynFlood
  split
  · exact uses_ret _
  · simp only [step_bind, uses_call]
    refine ⟨trivial, fun failure => ?_⟩
    split
    · exact uses_ret _
    · exact uses_ret _
    · refine ⟨trivial, fun failure' => ?_⟩
      dsimp only
      split
      · exact uses_ret _
      · exact uses_ret _
      · rw [flood]
        split
        · exact uses_ret _
        · have hstart : 1024 ≤ (1024 : UInt16).toNat := by decide
          exact @uses_floodLoop_of (Sends P) (fun sport => 1024 ≤ sport.toNat) _ _ _ _ _ trivial
            (fun _ => trivial) (fun _ => nextSport_ge) hP rounds _ hstart

/-- Every datagram that the SYN scenario sends, whatever the system calls answer, goes to its
target, is a complete SYN packet from `127.0.0.1` to the target's port, and has checksums that
verify. -/
theorem syn_datagrams_valid (stack : Stack) (rounds : ℕ) (cfg : DemoConfig) :
    Uses (Sends fun dest packet => dest = ⟨destAddr stack cfg, bpfNtohs cfg.targetPort⟩ ∧
      SynDatagram dest.addr cfg.targetPort packet ∧ ChecksumsVerify dest.addr packet)
      (runSynFlood stack rounds cfg) := by
  apply uses_runSynFlood
  intro sport hsport
  exact ⟨rfl, synDatagram_synPacket _ _ hsport, checksumsVerify_synPacket _ _ sport⟩

/-! ### The datagrams of a run -/

/-- The datagrams that calls send, in order. -/
def sent (calls : List DemoCall) : List (SockaddrIn × List UInt8) := calls.filterMap fun
  | .sendto dest packet => some (dest, packet)
  | _ => none

/-- The datagrams are, one after another, those of the rounds 0, 1, 2, and so on. -/
def Numbered (P : ℕ → SockaddrIn → List UInt8 → Prop) (calls : List DemoCall) : Prop :=
  ∀ k x, (sent calls)[k]? = some x → P k x.1 x.2

/-- An echo request with an identifier, the number of its round and 56 zero bytes, whose checksum a
receiver accepts. -/
structure EchoRequest (k : ℕ) (packet : List UInt8) : Prop where
  header : ∃ I : IcmpHeader, packet = I.encode ++ List.replicate 56 0 ∧ I.type = 8 ∧ I.code = 0 ∧
    I.checkRest.drop 2 = wire16 1234 ++ wire16 (UInt16.ofNat k)
  check : Verifies packet

/-- The SYN packet of a round: the port follows the number of the round and starts again at 1024. -/
def NumberedSyn (k : ℕ) (daddr : UInt32) (dport : UInt16) (packet : List UInt8) : Prop :=
  ∃ H T, SynHeaders daddr dport H T ∧ packet = H.encode ++ T.encode ∧
    T.source.toNat = 1024 + k % 64512

theorem numbered_of_silent {P : ℕ → SockaddrIn → List UInt8 → Prop} {calls : List DemoCall}
    (h : sent calls = []) : Numbered P calls := by
  intro k x hx
  rw [h] at hx
  cases hx

/-- A call that sends nothing does not count. -/
theorem Numbered.cons {P : ℕ → SockaddrIn → List UInt8 → Prop} {op : DemoCall}
    {calls : List DemoCall} (hop : sent [op] = []) (h : Numbered P calls) :
    Numbered P (op :: calls) := by
  have hsent : sent (op :: calls) = sent calls := by
    rw [← List.singleton_append, sent, List.filterMap_append]
    change sent [op] ++ sent calls = _
    rw [hop, List.nil_append]
  rw [Numbered, hsent]
  exact h

section Runs

variable {σ : Type} {h : Handler DemoCall DemoCall.Result σ}
variable {P : ℕ → SockaddrIn → List UInt8 → Prop}

/-- The induction is on the rounds: what is left of a run is a run from the next number on. -/
theorem numbered_floodLoop {cfg : DemoConfig} {dest : SockaddrIn} {packet : UInt16 → List UInt8}
    {next : UInt16 → UInt16} {checkSend : Bool} (rounds : ℕ) {seq : UInt16} (s : σ)
    (hP : ∀ k, P k dest (packet (next^[k] seq))) :
    Numbered P ((floodLoop cfg dest packet next checkSend rounds seq).calls h s) := by
  induction rounds generalizing P seq s with
  | zero => exact numbered_of_silent rfl
  | succ rounds ih =>
    simp only [floodLoop, step_bind, calls_call]
    split
    · exact numbered_of_silent rfl
    · have hrest : ∀ rest : List DemoCall, (∀ k x, (sent rest)[k]? = some x → P (k + 1) x.1 x.2) →
          ∀ k x, ((dest, packet seq) :: sent rest)[k]? = some x → P k x.1 x.2 := by
        rintro rest hrest (_ | k) x hx
        · cases hx
          exact hP 0
        · exact hrest k x hx
      apply hrest
      dsimp only
      split
      · exact numbered_of_silent rfl
      · apply ih
        intro k
        exact hP (k + 1)

theorem numbered_flood {cfg : DemoConfig} {dest : SockaddrIn} {packet : UInt16 → List UInt8}
    {next : UInt16 → UInt16} {checkSend : Bool} (rounds : ℕ) {seq : UInt16} (s : σ)
    (hP : ∀ k, P k dest (packet (next^[k] seq))) :
    Numbered P ((flood cfg dest packet next checkSend rounds seq).calls h s) := by
  rw [flood]
  split
  · exact numbered_of_silent rfl
  · exact numbered_floodLoop rounds s hP

end Runs

theorem iterate_succ (k : ℕ) : (· + 1)^[k] (0 : UInt16) = UInt16.ofNat k := by
  induction k with
  | zero => rfl
  | succ k ih =>
    rw [Function.iterate_succ_apply', ih, UInt16.ofNat_add]
    rfl

/-- The ports of the rounds. -/
theorem iterate_nextSport (k : ℕ) : (nextSport^[k] 1024).toNat = 1024 + k % 64512 := by
  induction k with
  | zero => rfl
  | succ k ih =>
    rw [Function.iterate_succ_apply', toNat_nextSport, ih]
    split <;> omega

theorem echoRequest_pingPacket (k : ℕ) : EchoRequest k (pingPacket (UInt16.ofNat k)) := by
  set seq := UInt16.ofNat k with hseq
  constructor
  · refine ⟨⟨8, 0, nativeBytes 2 (checksum (echoHeader 0 seq ++ List.replicate 56 0)).toNat ++
      (wire16 1234 ++ wire16 seq), by simp⟩, ?_, rfl, rfl, ?_⟩
    · simp [pingPacket, echoHeader, IcmpHeader.encode]
    · rw [List.drop_left' (length_nativeBytes 2 _)]
  · have hdata : ∃ b ∈ [8, 0] ++ [0, 0] ++ (wire16 1234 ++ wire16 seq ++ List.replicate 56 0),
        b ≠ 0 := ⟨8, by simp, by decide⟩
    have h := verifies_field rfl hdata (toNat_checksum hdata)
    simpa [pingPacket, echoHeader, nativeBytes_zero] using h

theorem numberedSyn_synPacket (daddr : UInt32) (dport : UInt16) (k : ℕ) :
    NumberedSyn k daddr dport (synPacket daddr dport (nextSport^[k] 1024)) := by
  have hport := iterate_nextSport k
  have hsport : 1024 ≤ (nextSport^[k] 1024).toNat := by
    rw [hport]
    exact Nat.le_add_right _ _
  obtain ⟨H, T, hheaders, hpacket, hsource⟩ := synHeaders_synPacket daddr dport hsport
  refine ⟨H, T, hheaders, hpacket, ?_⟩
  rw [hsource]
  exact hport

/-- In every run of the ICMP and of the SYN scenario, whatever the system calls answer, the
datagrams go to the target and carry the number of their round: an echo request as its sequence
number, which wraps, and a SYN packet in its source port, which skips the reserved ones. -/
theorem datagrams_numbered {σ : Type} (h : Handler DemoCall DemoCall.Result σ) (s : σ)
    (stack : Stack) (rounds : ℕ) (cfg : DemoConfig) :
    Numbered (fun k dest packet => dest.addr = destAddr stack cfg ∧ EchoRequest k packet)
        ((runPingFlood stack rounds cfg).calls h s) ∧
      Numbered (fun k dest packet => dest = ⟨destAddr stack cfg, bpfNtohs cfg.targetPort⟩ ∧
        NumberedSyn k dest.addr cfg.targetPort packet)
        ((runSynFlood stack rounds cfg).calls h s) := by
  constructor
  · rw [runPingFlood]
    split
    · exact numbered_of_silent rfl
    · simp only [step_bind, calls_call]
      split
      · exact numbered_of_silent rfl
      · exact numbered_of_silent rfl
      · refine Numbered.cons rfl ?_
        apply numbered_flood
        intro k
        rw [iterate_succ]
        exact ⟨rfl, echoRequest_pingPacket k⟩
  · rw [runSynFlood]
    split
    · exact numbered_of_silent rfl
    · simp only [step_bind, calls_call]
      split
      · exact numbered_of_silent rfl
      · exact numbered_of_silent rfl
      · refine Numbered.cons rfl ?_
        simp only [calls_call]
        split
        · exact numbered_of_silent rfl
        · exact numbered_of_silent rfl
        · refine Numbered.cons rfl ?_
          apply numbered_flood
          intro k
          exact ⟨rfl, numberedSyn_synPacket _ _ k⟩

end KWatch
