import KWatch.Xdp.Program

/-! # Draining the ring buffer

`src/bpf/ringbuf.cpp` hands the first events of a drain to the callback and counts the rest
against a budget. Reading the records is the business of libbpf, which is a parameter here: it
offers pending records in order and stops early only when the callback asks for it.
-/

namespace KWatch

/-- The size of `kwatch_event` with its padding. -/
def kwatchEventSize : ℕ := 32

/-- The reader's state. The list is what the callback was called with, oldest first. -/
structure RingBuf where
  delivered : List KwatchEvent
  errorCount : UInt64
  droppedCount : UInt64
  callbackBudget : UInt64
  callbacksThisDrain : UInt64
  deriving DecidableEq, Repr

namespace RingBuf

def new : RingBuf := ⟨[], 0, 0, 0, 0⟩

/-- The handler of one record and its result. -/
def dispatchEvent (r : RingBuf) (e : KwatchEvent) (size : ℕ) : RingBuf × ℤ :=
  if size < kwatchEventSize then (r, 0)
  else if 0 < r.callbackBudget && r.callbackBudget ≤ r.callbacksThisDrain then
    ({ r with droppedCount := r.droppedCount + 1 }, 1)
  else
    ({ r with
      delivered := r.delivered ++ [e]
      callbacksThisDrain := r.callbacksThisDrain + 1 }, 0)

/-- `ring_buffer__consume`: from a handler, the reader and the pending records, the reader after
the handler calls, the records left, and the result. -/
abbrev Consumer := (RingBuf → KwatchEvent → RingBuf × ℤ) → RingBuf → List KwatchEvent →
  RingBuf × List KwatchEvent × ℤ

/-- Pending records are delivered in order, all of them when no handler result is negative. -/
def Consumer.DeliversInOrder (consumer : Consumer) : Prop :=
  ∀ handler r pending, (∀ r e, 0 ≤ (handler r e).2) → ∃ n : ℤ, 0 ≤ n ∧
    consumer handler r pending = (pending.foldl (fun r e => (handler r e).1) r, [], n)

/-- The loop of libbpf over one ring, with the number of records as its result. -/
def consumeAll : Consumer := fun handler r pending => go handler r pending 0
where
  go (handler : RingBuf → KwatchEvent → RingBuf × ℤ) (r : RingBuf) :
      List KwatchEvent → ℤ → RingBuf × List KwatchEvent × ℤ
    | [], n => (r, [], n)
    | e :: es, n =>
      let x := handler r e
      if x.2 < 0 then (x.1, es, x.2) else go handler x.1 es (n + 1)

theorem consumeAll_deliversInOrder : consumeAll.DeliversInOrder := by
  intro handler r pending hpos
  suffices h : ∀ n : ℤ, 0 ≤ n → ∃ n' : ℤ, 0 ≤ n' ∧ consumeAll.go handler r pending n =
      (pending.foldl (fun r e => (handler r e).1) r, [], n') from h 0 le_rfl
  induction pending generalizing r with
  | nil => exact fun n hn => ⟨n, hn, rfl⟩
  | cons e es ih =>
    intro n hn
    obtain ⟨n', hn', h⟩ := ih (handler r e).1 (n + 1) (by omega)
    exact ⟨n', hn', by simp only [consumeAll.go, not_lt.mpr (hpos r e), if_false, h]; rfl⟩

/-- One drain: the reader and the records left. -/
def consume (consumer : Consumer) (budget : UInt64) (pending : List KwatchEvent) (r : RingBuf) :
    RingBuf × List KwatchEvent :=
  let x := consumer (fun r e => r.dispatchEvent e kwatchEventSize)
    { r with callbackBudget := budget, callbacksThisDrain := 0 } pending
  let r' := { x.1 with callbackBudget := 0 }
  -- -4 is `-EINTR`
  (if x.2.2 < 0 ∧ x.2.2 ≠ -4 then { r' with errorCount := r'.errorCount + 1 } else r', x.2.1)

/-! ### What a drain does -/

theorem dispatchEvent_nonneg (r : RingBuf) (e : KwatchEvent) (size : ℕ) :
    0 ≤ (r.dispatchEvent e size).2 := by
  unfold dispatchEvent
  split_ifs <;> simp

/-- Handling records in order: the first ones are delivered, the rest is counted. -/
theorem foldl_dispatchEvent {r : RingBuf} {budget : UInt64} (hb : r.callbackBudget = budget)
    (hpos : 0 < budget) (hc : r.callbacksThisDrain ≤ budget) (pending : List KwatchEvent) :
    let r' := pending.foldl (fun r e => (r.dispatchEvent e kwatchEventSize).1) r
    let room := budget.toNat - r.callbacksThisDrain.toNat
    r'.delivered = r.delivered ++ pending.take room ∧
      r'.droppedCount = r.droppedCount + UInt64.ofNat (pending.length - room) ∧
      r'.errorCount = r.errorCount := by
  induction pending generalizing r with
  | nil => simp
  | cons e es ih =>
    have hsize : ¬ kwatchEventSize < kwatchEventSize := lt_irrefl _
    by_cases hfull : budget ≤ r.callbacksThisDrain
    · have hroom : budget.toNat - r.callbacksThisDrain.toNat = 0 :=
        Nat.sub_eq_zero_of_le (UInt64.le_iff_toNat_le.mp hfull)
      have hstep : (r.dispatchEvent e kwatchEventSize).1 =
          { r with droppedCount := r.droppedCount + 1 } := by
        simp [dispatchEvent, hb, hpos, hfull]
      simp only [List.foldl_cons, hstep]
      obtain ⟨hd, hk, he⟩ := ih (r := { r with droppedCount := r.droppedCount + 1 }) hb hc
      simp only [hroom, List.take_zero, List.append_nil, Nat.sub_zero] at hd hk ⊢
      refine ⟨hd, ?_, he⟩
      rw [hk, List.length_cons, UInt64.ofNat_add, UInt64.add_assoc, UInt64.add_comm 1]
      rfl
    · have hlt : r.callbacksThisDrain < budget := UInt64.not_le.mp hfull
      have hltn := UInt64.lt_iff_toNat_lt.mp hlt
      have hstep : (r.dispatchEvent e kwatchEventSize).1 =
          { r with
            delivered := r.delivered ++ [e]
            callbacksThisDrain := r.callbacksThisDrain + 1 } := by
        simp [dispatchEvent, hb, hfull]
      have hcount : (r.callbacksThisDrain + 1).toNat = r.callbacksThisDrain.toNat + 1 := by
        have := budget.toNat_lt
        rw [UInt64.toNat_add, UInt64.toNat_one]
        omega
      simp only [List.foldl_cons, hstep]
      obtain ⟨hd, hk, he⟩ := ih (r := { r with
        delivered := r.delivered ++ [e]
        callbacksThisDrain := r.callbacksThisDrain + 1 }) hb
        (UInt64.le_iff_toNat_le.mpr (by simp only [hcount]; omega))
      simp only [hcount] at hd hk
      have hroom : budget.toNat - r.callbacksThisDrain.toNat =
          (budget.toNat - (r.callbacksThisDrain.toNat + 1)) + 1 := by omega
      refine ⟨?_, ?_, he⟩
      · rw [hd, hroom, List.take_succ_cons, List.append_assoc]
        rfl
      · rw [hk, hroom, List.length_cons, Nat.add_sub_add_right]

/-- A drain delivers as many records as its budget allows and counts the others. -/
theorem consume_spec {consumer : Consumer} (hlib : consumer.DeliversInOrder) {budget : UInt64}
    (hpos : 0 < budget) (pending : List KwatchEvent) (r : RingBuf) :
    let x := consume consumer budget pending r
    x.1.delivered = r.delivered ++ pending.take budget.toNat ∧
      x.1.droppedCount = r.droppedCount + UInt64.ofNat (pending.length - budget.toNat) ∧
      x.1.errorCount = r.errorCount ∧ x.2 = [] := by
  obtain ⟨n, hn, hx⟩ := hlib (fun r e => r.dispatchEvent e kwatchEventSize)
    { r with callbackBudget := budget, callbacksThisDrain := 0 } pending
    fun r e => dispatchEvent_nonneg r e kwatchEventSize
  have hf := foldl_dispatchEvent
    (r := { r with callbackBudget := budget, callbacksThisDrain := 0 }) rfl hpos
    (UInt64.le_of_lt hpos) pending
  simp only [UInt64.toNat_zero, Nat.sub_zero] at hf
  simp only [consume, hx, not_lt.mpr hn, false_and, if_false]
  exact ⟨hf.1, hf.2.1, hf.2.2, trivial⟩

end RingBuf

end KWatch
