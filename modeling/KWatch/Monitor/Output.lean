import KWatch.Core.Ndjson
import KWatch.Monitor.Lifecycle

/-! # What a monitoring process prints

`kwatch run --json` prints a line for every event that reaches its callback. The text on its
standard output is read back line by line, and tells of the packets in the order of their arrival.
-/

namespace KWatch

open Prog

/-! ### Lines -/

/-- The lines of a text in which a newline ends every line. -/
def readLines (out : Text) : List Text := (out.splitOnP (· = '\n')).dropLast

theorem readLines_flatMap {lines : List Text} (h : ∀ l ∈ lines, '\n' ∉ l) :
    readLines (lines.flatMap (· ++ ['\n'])) = lines := by
  suffices hsplit : (lines.flatMap (· ++ ['\n'])).splitOnP (· = '\n') = lines ++ [[]] by
    rw [readLines, hsplit, List.dropLast_concat]
  induction lines with
  | nil => rfl
  | cons l lines ih =>
    obtain ⟨hl, hlines⟩ := List.forall_mem_cons.mp h
    have hnone : ∀ c ∈ l, decide (c = '\n') = false := by
      intro c hc
      rw [decide_eq_false_iff_not]
      rintro rfl
      exact hl hc
    rw [List.flatMap_cons, List.append_assoc, List.singleton_append,
      List.splitOnP_append_cons _ _ (by simp), List.splitOnP_eq_singleton hnone, ih hlines]
    rfl

/-! ### The output -/

def EventOutputFormat.ofJson (json : Bool) : EventOutputFormat := if json then .json else .text

/-- What the callback has printed, with the time at the `n`-th event. -/
def stdout (globals : GlobalOptions) (stamp : ℕ → Text) (r : RingBuf) : Text :=
  (r.delivered.mapIdx fun n e =>
    formatEvent e (.ofJson globals.json) (stamp n)).flatMap (· ++ ['\n'])

/-- The output tells of packets that have arrived, in their order, and so will the events that wait
in the ring. Every dropped packet is among those that an event was decided for, and what is missing
of these is in the two counters of losses. -/
structure PrintsLog (stamp : ℕ → Text) (as emitted printed pending : List Arrival)
    (events : List KwatchEvent) (out : Text) (t : Traffic) : Prop where
  lines : (readLines out).map readEventLine = events.mapIdx fun n e => some (stamp n, e)
  reported : List.Forall₂ Arrival.Reports printed events
  reportable : List.Forall₂ Arrival.Reports pending t.maps.events
  order : (printed ++ pending).Sublist emitted
  arrived : emitted.Sublist as
  dropped : (as.filter Arrival.dropped).Sublist emitted
  losses : emitted.length ≡ printed.length + pending.length + t.ring.droppedCount.toNat +
    t.maps.ringbufDrops.toNat [MOD 2 ^ 64]

theorem Arrival.Reports.action {a : Arrival} {e : KwatchEvent} (h : a.Reports e) :
    e.action = 0 ∨ e.action = 1 := by
  obtain ⟨ip, -, rfl⟩ := h
  rw [eventOf_eq]
  split_ifs
  · exact .inr rfl
  · exact .inl rfl

/-- The wakeups of a command that waits, and of one that has returned: up to one that ends the loop,
or none if a start failed. -/
def Attended (ws seen : List Wakeup) : Option ℕ → Prop
  | none => seen = ws
  | some 0 => seen <+: ws ∧ ∃ before w, seen = before ++ [w] ∧
      ((∃ e, w.result = .error e ∧ e ≠ 4) ∨ Terminated (seen.flatMap Wakeup.signals))
  | some _ => seen = []

theorem actions_of_reports {as : List Arrival} {es : List KwatchEvent}
    (h : List.Forall₂ Arrival.Reports as es) : ∀ e ∈ es, e.action = 0 ∨ e.action = 1 := by
  induction h with
  | nil => exact fun e he => absurd he List.not_mem_nil
  | cons ha _ ih => exact List.forall_mem_cons.mpr ⟨ha.action, ih⟩

/-- Every line is read back as the event that it was printed for. -/
theorem readLines_stdout {globals : GlobalOptions} (hjson : globals.json = true)
    {stamp : ℕ → Text} (hstamp : ∀ n, ∀ c ∈ stamp n, Json.isPlain c = true) {r : RingBuf}
    (hact : ∀ e ∈ r.delivered, e.action = 0 ∨ e.action = 1) :
    (readLines (stdout globals stamp r)).map readEventLine =
      r.delivered.mapIdx fun n e => some (stamp n, e) := by
  have hline : ∀ l ∈ r.delivered.mapIdx (fun n e =>
      formatEvent e (.ofJson globals.json) (stamp n)), '\n' ∉ l := by
    rintro l hl hnl
    obtain ⟨n, hn, rfl⟩ := List.mem_mapIdx.mp hl
    rw [hjson] at hnl
    have hplain := (isObject_formatEvent (r.delivered[n]) (hstamp n)).no_control '\n' hnl
    exact absurd hplain (by decide)
  rw [stdout, readLines_flatMap hline]
  apply List.ext_getElem (by simp)
  intro n hn _
  simp only [List.length_map, List.length_mapIdx] at hn
  simp only [List.getElem_map, List.getElem_mapIdx, hjson]
  exact readEventLine_formatEvent (hact _ (List.getElem_mem hn)) (hstamp n)

section Output

variable {K : Kernel} {ws : List Wakeup} {globals : GlobalOptions} {stamp : ℕ → Text}
  (hjson : globals.json = true) (hstamp : ∀ n, ∀ c ∈ stamp n, Json.isPlain c = true)

include hjson hstamp

theorem Pipeline.Traced.printsLog {as emitted kept : List Arrival} {beyond unreserved d : ℕ}
    {t : Traffic} (h : Traced as emitted kept beyond unreserved ⟨t.maps, t.ring, d⟩) :
    ∃ printed pending, PrintsLog stamp as emitted printed pending t.ring.delivered
      (stdout globals stamp t.ring) t := by
  set k := t.ring.delivered.length with hk
  have hprinted := List.forall₂_take_append _ _ _ h.reports
  have hpending := List.forall₂_drop_append _ _ _ h.reports
  refine ⟨kept.take k, kept.drop k,
    readLines_stdout hjson hstamp (actions_of_reports hprinted), hprinted, hpending, ?_,
    h.arrived, h.dropped, ?_⟩
  · rw [List.take_append_drop]
    exact h.decided
  · have hlen : (kept.take k).length + (kept.drop k).length = kept.length := by
      rw [← List.length_append, List.take_append_drop]
    have hb : t.ring.droppedCount.toNat = beyond % 2 ^ 64 := by
      rw [h.droppedCount, UInt64.toNat_ofNat']
    have hu : t.maps.ringbufDrops.toNat = unreserved % 2 ^ 64 := by
      rw [h.ringbufDrops, UInt64.toNat_ofNat']
    rw [h.lost, hlen, hb, hu]
    exact ((Nat.ModEq.refl _).add (Nat.mod_modEq _ _).symm).add (Nat.mod_modEq _ _).symm

/-- What has been served to a program since it was loaded, it prints. -/
theorem Served.printsLog (hlib : K.consumer.DeliversInOrder) {t : Traffic}
    (h : Served K ws (.loaded globals.sampleN) t) : ∃ emitted printed pending,
      PrintsLog stamp (ws.flatMap Wakeup.arrivals) emitted printed pending t.ring.delivered
        (stdout globals stamp t.ring) t := by
  obtain ⟨steps, harr, hrun⟩ := h.pipeline
  obtain ⟨d, hrun⟩ := hrun 0
  obtain ⟨emitted, kept, beyond, unreserved, ht⟩ := Pipeline.exists_traced hlib hrun
  rw [harr] at ht
  exact ⟨emitted, ht.printsLog hjson hstamp⟩

theorem Silent.printsLog {t : Monitor} (h : Silent t) : ∃ emitted printed pending,
    PrintsLog stamp [] emitted printed pending t.ring.delivered (stdout globals stamp t.ring)
      t.toTraffic := by
  have ht : Pipeline.Traced [] [] [] 0 0 ⟨t.maps, t.ring, 0⟩ := by
    rw [h.maps, h.ring]
    exact Pipeline.traced_start
  exact ⟨[], ht.printsLog hjson hstamp⟩

variable {maps args : List Text} {self : OwnerState} {fds : Table ℕ Descriptor} {files : Files}
  {t : Monitor}

theorem Cause.printsLog (hlib : K.consumer.DeliversInOrder) {s : Monitor} {code : ℕ}
    (h : Cause K globals ws args s t code) : ∃ seen, Attended ws seen (some code) ∧
      ∃ emitted printed pending, PrintsLog stamp (seen.flatMap Wakeup.arrivals) emitted printed
        pending t.ring.delivered (stdout globals stamp t.ring) t.toTraffic := by
  cases h with
  | usage _ hs => exact ⟨[], rfl, hs.printsLog hjson hstamp⟩
  | noInterface _ _ hs => exact ⟨[], rfl, hs.printsLog hjson hstamp⟩
  | refused hcode hs =>
    refine ⟨[], ?_, hs.printsLog hjson hstamp⟩
    have hmem := hcode.1
    simp only [List.mem_cons, List.not_mem_nil, or_false] at hmem
    rcases hmem with rfl | rfl | rfl <;> rfl
  | stopped _ hs =>
    obtain ⟨before, w, after, rfl, hserved, hstop⟩ := hs
    exact ⟨before ++ [w], ⟨⟨after, by simp⟩, before, w, rfl, hstop⟩,
      hserved.printsLog hjson hstamp hlib⟩

end Output

end KWatch
