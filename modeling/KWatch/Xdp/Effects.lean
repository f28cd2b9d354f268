import KWatch.Xdp.Parser

/-! # What one run changes

Each map changes in one way: the blacklist never, one counter by the class of the frame, the
flow map by an accepted packet, and the ring by a positive emit decision. Later proofs use
these equations and do not unfold the program.
-/

namespace KWatch

variable (cfg : KwatchRuntimeConfig) (h : Helpers) (f : Frame) (m : Maps)

/-- The counter a frame belongs to. -/
def counterClass (b : LpmTrie) : FrameView → Option UInt32
  | .ignored => none
  | .sentinel k => some k
  | .ipv4 ip => some (if isBlacklisted b ip then 0xFFFF else ip.proto.toUInt32)

/-- The packet a frame is accepted as. -/
def acceptedPacket (b : LpmTrie) : FrameView → Option Ipv4View
  | .ipv4 ip => if isBlacklisted b ip then none else some ip
  | _ => none

/-- The event of a positive emit decision. -/
def emitDecision : FrameView → Option KwatchEvent
  | .ipv4 ip =>
    if isBlacklisted m.blacklist ip then
      if kwatchShouldEmitEvent cfg.sampleN h.prandom true then
        some (eventOf f ip h.eventTsNs 1) else none
    else
      if kwatchShouldEmitEvent cfg.sampleN h.prandom (m.flowState.get? (keyOf f ip)).isNone then
        some (eventOf f ip h.eventTsNs 0) else none
  | _ => none

theorem accountFlow_snd (key : KwatchFlowKey) (flags : UInt8)
    (flows : Table KwatchFlowKey KwatchFlowStats) :
    (accountFlow cfg h key flags flows).2 = (flows.get? key).isNone := by
  unfold accountFlow
  cases flows.get? key <;> rfl

theorem runView_drop_iff (v : FrameView) : (runView cfg h f m v).1 = .XDP_DROP ↔
    ∃ ip, v = .ipv4 ip ∧ isBlacklisted m.blacklist ip := by
  cases v with
  | ignored => simp [runView]
  | sentinel k => simp [runView]
  | ipv4 ip => by_cases hb : isBlacklisted m.blacklist ip <;> simp [runView, hb]

@[simp] theorem runView_blacklist (v : FrameView) :
    (runView cfg h f m v).2.blacklist = m.blacklist := by
  cases v with
  | ignored => rfl
  | sentinel k => rfl
  | ipv4 ip =>
    simp only [runView, emitRecord, incRingbufDrop]
    split_ifs <;> rfl

theorem runView_pktCounts (v : FrameView) : (runView cfg h f m v).2.pktCounts =
    match counterClass m.blacklist v with
    | none => m.pktCounts
    | some k => incCount k m.pktCounts := by
  cases v with
  | ignored => rfl
  | sentinel k => rfl
  | ipv4 ip =>
    simp only [runView, emitRecord, incRingbufDrop, counterClass]
    split_ifs <;> rfl

theorem runView_flowState (v : FrameView) : (runView cfg h f m v).2.flowState =
    match acceptedPacket m.blacklist v with
    | none => m.flowState
    | some ip => (accountFlow cfg h (keyOf f ip) (flowFieldsOf f ip).tcpFlags m.flowState).1 := by
  cases v with
  | ignored => rfl
  | sentinel k => rfl
  | ipv4 ip =>
    by_cases hb : isBlacklisted m.blacklist ip
    all_goals
      simp only [runView, emitRecord, incRingbufDrop, acceptedPacket, hb, if_true, if_false,
        Bool.false_eq_true]
      split_ifs <;> rfl

theorem runView_ring (v : FrameView) :
    ((runView cfg h f m v).2.events, (runView cfg h f m v).2.ringbufDrops) =
      match emitDecision cfg h f m v with
      | none => (m.events, m.ringbufDrops)
      | some e => if h.ringFull then (m.events, m.ringbufDrops + 1)
        else (m.events ++ [e], m.ringbufDrops) := by
  cases v with
  | ignored => rfl
  | sentinel k => rfl
  | ipv4 ip =>
    by_cases hb : isBlacklisted m.blacklist ip
    all_goals
      simp only [runView, emitRecord, incRingbufDrop, emitDecision, hb, if_true, if_false,
        accountFlow_snd, Bool.false_eq_true, Bool.not_eq_eq_eq_not, Bool.not_true]
      split_ifs <;> simp_all

/-! ### Runs -/

/-- A frame with the blacklist the operator has at its arrival. -/
structure Arrival where
  frame : Frame
  helpers : Helpers
  blacklist : LpmTrie

/-- Run the program on one frame after another, as long as no load leaves a frame. -/
def xdpRun (cfg : KwatchRuntimeConfig) (m : Maps) (as : List Arrival) : Option Maps :=
  as.foldlM (fun m a =>
    (xdpKwatchProg cfg a.helpers a.frame { m with blacklist := a.blacklist }).map Prod.snd) m

def Maps.empty : Maps := ⟨.empty, .empty, [], 0, .empty⟩

end KWatch
