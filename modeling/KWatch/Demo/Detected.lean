import KWatch.Demo.Datagrams
import KWatch.Detection.Parallel

/-! # A demo under watch

The packet program watches the interface on which the SYN scenario runs. Every datagram of the
scenario that arrives counts as a SYN packet from `127.0.0.1`. On loopback the answers to it come
from the same address: that of a closed port counts against it, that of a listening port on both
sides.
-/

namespace KWatch

open Prog AcceptedPacket

/-- The frame is the datagram behind a link header for IPv4. -/
def Carries (packet : List UInt8) (f : Frame) : Prop :=
  ∃ E : EthFrame, E.ethType = ETH_P_IP ∧ E.payload = packet ∧ E.encode = f

/-- The program sent a datagram of which the frame is the arrival. -/
def ArrivesFrom (calls : List DemoCall) (f : Frame) : Prop :=
  ∃ dest packet, DemoCall.sendto dest packet ∈ calls ∧ Carries packet f

/-! ### What the packet program makes of a datagram -/

variable {b : LpmTrie} {daddr : UInt32} {dport : UInt16} {packet : List UInt8} {f : Frame}

theorem SynDatagram.accepted (hpacket : SynDatagram daddr dport packet) (hf : Carries packet f)
    (hfree : ¬∃ n ∈ b.networks, InNetwork localhost n) (h : Helpers) :
    ∃ key, key.srcIp = localhost ∧ Arrival.accepted ⟨f, h, b⟩ = some ⟨h.nowNs, key, 0x02⟩ := by
  obtain ⟨H, T, hsyn, rfl⟩ := hpacket
  obtain ⟨E, hip, hpay, rfl⟩ := hf
  let F : Ipv4Frame := ⟨E.macs, E.macs_length, E.tag, H, T.encode⟩
  have hF : F.encode = E.encode := by
    rw [EthFrame.encode, EthFrame.header, hip, hpay]
    rfl
  have hflags : F.tcpFlags = 0x02 := by
    rw [← flowFieldsOf_tcpFlags]
    have hd := F.decodes_transport.tcp hsyn.protocol T [] (List.append_nil _).symm
    exact (congrArg TransportFields.tcpFlags hd).trans hsyn.flags
  refine ⟨keyOf E.encode F.view, hsyn.saddr, accepted_eq_some_iff.mpr ⟨F, hF, ?_, ?_⟩⟩
  · have hsaddr : F.ip.saddr = localhost := hsyn.saddr
    rwa [hsaddr]
  · rw [hflags]

/-- The datagram counts as a SYN packet and not as an ACK packet. -/
theorem SynDatagram.sends (hpacket : SynDatagram daddr dport packet) (hf : Carries packet f)
    (hfree : ¬∃ n ∈ b.networks, InNetwork localhost n) :
    sends isSyn b localhost f = true ∧ sends isAck b localhost f = false := by
  obtain ⟨key, hkey, ha⟩ := hpacket.accepted hf hfree ⟨0, 0, 0, false, []⟩
  rw [KWatch.sends, KWatch.sends, ha]
  constructor
  · simp [isSyn, hkey]
  · have hbit : (0x02 : UInt8) &&& 0x10 = 0 := by decide
    simp [isAck, hbit]

/-- All that the SYN scenario sends are SYN packets. -/
theorem synDatagram_of_mem_calls {σ : Type} {h : Handler DemoCall DemoCall.Result σ} {s : σ}
    {stack : Stack} {rounds : ℕ} {cfg : DemoConfig} {dest : SockaddrIn}
    (hmem : DemoCall.sendto dest packet ∈ (runSynFlood stack rounds cfg).calls h s) :
    SynDatagram dest.addr cfg.targetPort packet := by
  have huses : Uses (Sends fun dest packet => SynDatagram dest.addr cfg.targetPort packet)
      (runSynFlood stack rounds cfg) :=
    uses_runSynFlood (fun _ hsport => synDatagram_synPacket _ _ hsport) rounds
  exact huses.of_mem_calls hmem

/-! ### Detection -/

/-- The frames that arrived, one after another. -/
def heardOrder (heard : List (Bool × Frame)) : List (Unit × ℕ × Frame) :=
  heard.zipIdx.map fun x => ((), x.2, x.1.2)

theorem sorted_heardOrder (heard : List (Bool × Frame)) :
    (heardOrder heard).Pairwise fun x y => x.2.1 ≤ y.2.1 := by
  rw [heardOrder, List.pairwise_map]
  have hidx : (heard.zipIdx.map Prod.snd).Pairwise (· < ·) := by
    rw [List.zipIdx_map_snd]
    exact List.pairwise_lt_range'
  rw [List.pairwise_map] at hidx
  exact hidx.imp fun h => h.le

theorem le_of_mem_heardOrder {heard : List (Bool × Frame)} {x : Unit × ℕ × Frame}
    (hx : x ∈ heardOrder heard) : x.2.1 ≤ heard.length := by
  obtain ⟨y, hy, rfl⟩ := List.mem_map.mp hx
  exact (List.snd_lt_of_mem_zipIdx hy).le.trans (by simp)

theorem countP_heardOrder (p : Frame → Bool) (heard : List (Bool × Frame)) :
    (heardOrder heard).countP (fun x => p x.2.2) = heard.countP fun x => p x.2 := by
  have hfst : heard.countP (fun x => p x.2) =
      (heard.zipIdx.map Prod.fst).countP fun x => p x.2 := by
    rw [List.zipIdx_map_fst]
  rw [hfst, heardOrder, List.countP_map, List.countP_map]
  rfl

/-- The datagrams of a SYN scenario arrive together with other frames. A complete snapshot in the
first window flags `127.0.0.1` exactly when the datagrams and the other SYN packets from that
address exceed its ACK packets by the threshold. An answer of a listening port is a packet of both
kinds. -/
theorem syn_flood_flagged_iff {σ : Type} (h : Handler DemoCall DemoCall.Result σ) (s : σ)
    (stack : Stack) (rounds : ℕ) (cfg : DemoConfig) {heard : List (Bool × Frame)}
    (hdemo : ∀ f, (true, f) ∈ heard → ArrivesFrom ((runSynFlood stack rounds cfg).calls h s) f)
    (hfree : ¬∃ n ∈ b.networks, InNetwork localhost n) {env : ℕ → Helpers}
    (hlru : ∀ n, (env n).lruVictims = []) {sampleN window : UInt32} {now : UInt64}
    (hclock : ClockWithin env heard.length window now) {m : Maps}
    (hrun : xdpRun (kwatchMakeRuntimeConfig sampleN window) { Maps.empty with blacklist := b }
      ((heardOrder heard).map fun x => arrivalAt env b x.2) = some m)
    {entries : List FlowMapEntry} (hsnap : CompleteSnapshot m.flowState entries)
    {t : FlowTracker} (ht : t.synWindowNs = window.toUInt64 * 1000000000)
    (hthr : 1 ≤ t.synThreshold.toNat) (hnew : ¬t.Flagged localhost)
    (hfew : heard.length < 2 ^ 32) :
    (t.processFlowSnapshot entries now).Flagged localhost ↔ t.synThreshold.toNat ≤
      heard.countP (fun x => x.1 || sends isSyn b localhost x.2) -
        heard.countP fun x => sends isAck b localhost x.2 := by
  have hlen : ∀ x ∈ heardOrder heard, x.2.1 ≤ heard.length := fun x hx => le_of_mem_heardOrder hx
  have hx : FlowsFirst (kwatchMakeRuntimeConfig sampleN window)
      (accepted (packetSteps env b (heardOrder heard))) m.flowState := by
    have hfirst := flowsFirst_xdpRun rfl (fun a ha => ?_)
      (hclock.withinWindow (sorted_heardOrder heard) hlen) hrun
    · rw [accepted_packetSteps]
      simpa [List.filterMap_map, Function.comp_def] using hfirst
    · obtain ⟨x, -, rfl⟩ := List.mem_map.mp ha
      exact hlru _
  have hsyn : (heardOrder heard).countP (fun x => sends isSyn b localhost x.2.2) =
      heard.countP fun x => x.1 || sends isSyn b localhost x.2 := by
    rw [countP_heardOrder]
    apply List.countP_congr
    rintro ⟨demo, f⟩ hf
    cases demo with
    | true =>
      obtain ⟨dest, packet, hmem, hcar⟩ := hdemo f hf
      simp [((synDatagram_of_mem_calls hmem).sends hcar hfree).1]
    | false => simp
  have hack := countP_heardOrder (sends isAck b localhost) heard
  rw [hclock.flagged_iff hlen hx hsnap ht hthr hnew, hsyn, hack]
  · rw [hsyn]
    exact List.countP_le_length.trans_lt hfew
  · rw [hack]
    exact List.countP_le_length.trans_lt hfew

/-! ### An answered SYN -/

/-- The system calls of a machine on which everything succeeds and no time passes. -/
def willing : Handler DemoCall DemoCall.Result Unit
  | .socket _, s => (none, s)
  | .setHdrincl, s => (none, s)
  | .elapsedSeconds, s => (0, s)
  | .sendto _ _, s => (true, s)
  | .sleepFor _, s => ((), s)

/-- A frame on loopback. -/
def onLoopback (packet : List UInt8) : Frame := List.replicate 12 0 ++ [8, 0] ++ packet

/-- An answer to a datagram, a TCP packet with some flags in the other direction. -/
def answer (flags : UInt8) : List UInt8 :=
  [0x45, 0, 0, 40, 0, 0, 0, 0, 64, 6, 0, 0, 127, 0, 0, 1, 127, 0, 0, 1] ++
    [0, 80, 4, 0, 0, 0, 0, 0, 0, 0, 0, 1, 0x50, flags, 0, 0, 0, 0, 0, 0]

/-- Two datagrams of the scenario, an RST and ACK packet of a closed port, and a SYN and ACK packet
of a listening one. -/
def answeredTwice : List (Bool × Frame) :=
  [(true, onLoopback (synPacket localhost 80 1024)), (false, onLoopback (answer 0x14)),
    (true, onLoopback (synPacket localhost 80 1025)), (false, onLoopback (answer 0x12))]

theorem carries_onLoopback (packet : List UInt8) : Carries packet (onLoopback packet) := by
  refine ⟨⟨List.replicate 12 0, rfl, none, ETH_P_IP, fun _ => by decide, packet⟩, rfl, rfl, ?_⟩
  have htype : wire16 ETH_P_IP = [8, 0] := by decide
  simp [EthFrame.encode, EthFrame.header, EthFrame.tagBytes, htype, onLoopback]

theorem arrives_answeredTwice (f : Frame) (hf : (true, f) ∈ answeredTwice) : ArrivesFrom
    ((runSynFlood ⟨0, 0⟩ 2 ⟨"127.0.0.1".toList, 80, 100, 5, false⟩).calls willing ()) f := by
  have hcalls : (runSynFlood ⟨0, 0⟩ 2 ⟨"127.0.0.1".toList, 80, 100, 5, false⟩).calls willing () =
      [.socket .rawTcp, .setHdrincl, .elapsedSeconds,
        .sendto ⟨localhost, bpfNtohs 80⟩ (synPacket localhost 80 1024), .sleepFor 10000000,
        .elapsedSeconds, .sendto ⟨localhost, bpfNtohs 80⟩ (synPacket localhost 80 1025),
        .sleepFor 10000000] := rfl
  rw [hcalls]
  simp only [answeredTwice, List.mem_cons, Prod.mk.injEq, Bool.true_eq_false, false_and, true_and,
    List.not_mem_nil, or_false, false_or] at hf
  rcases hf with rfl | rfl
  · exact ⟨⟨localhost, bpfNtohs 80⟩, _, by simp, carries_onLoopback _⟩
  · exact ⟨⟨localhost, bpfNtohs 80⟩, _, by simp, carries_onLoopback _⟩

/-- The first answer takes one of two datagrams away and the second one none, so a threshold of 2 is
not reached. -/
theorem syn_flood_flagged_iff_answered : ∃ m,
    xdpRun (kwatchMakeRuntimeConfig 1 1) { Maps.empty with blacklist := .empty }
      ((heardOrder answeredTwice).map fun x => arrivalAt steadyHelpers .empty x.2) = some m ∧
    answeredTwice.countP (fun x => x.1 || sends isSyn .empty localhost x.2) = 3 ∧
    (answeredTwice.countP fun x => sends isAck .empty localhost x.2) = 2 ∧
    ¬((FlowTracker.create 2 1 false 1).processFlowSnapshot (snapshotOf m.flowState) 100).Flagged
      localhost := by
  obtain ⟨m, hrun⟩ : ∃ m,
      xdpRun (kwatchMakeRuntimeConfig 1 1) { Maps.empty with blacklist := .empty }
        ((heardOrder answeredTwice).map fun x => arrivalAt steadyHelpers .empty x.2) = some m :=
    ⟨_, rfl⟩
  have hclock : ClockWithin steadyHelpers answeredTwice.length 1 100 := by
    refine ⟨fun j k hjk (hk : k ≤ 4) => ?_, by decide, by decide, by decide⟩
    simp only [steadyHelpers, UInt64.le_iff_toNat_le, UInt64.toNat_ofNat']
    omega
  have hnew : ¬(FlowTracker.create 2 1 false 1).Flagged localhost := by
    rintro ⟨s, ⟨⟩, -⟩
  have hthr : 1 ≤ (FlowTracker.create 2 1 false 1).synThreshold.toNat := by decide
  have hsyn : answeredTwice.countP (fun x => x.1 || sends isSyn .empty localhost x.2) = 3 := by
    decide +kernel
  have hack : (answeredTwice.countP fun x => sends isAck .empty localhost x.2) = 2 := by
    decide +kernel
  refine ⟨m, hrun, hsyn, hack, ?_⟩
  rw [syn_flood_flagged_iff willing () ⟨0, 0⟩ 2 ⟨"127.0.0.1".toList, 80, 100, 5, false⟩
    arrives_answeredTwice (by simp) (fun _ => rfl) hclock hrun (completeSnapshot_snapshotOf _) rfl
    hthr hnew (by decide), hsyn, hack]
  decide

end KWatch
