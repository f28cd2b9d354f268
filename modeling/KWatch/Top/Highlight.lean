import KWatch.Library.Run
import KWatch.Top.Firewall

/-! # The highlighted row

A tick handles a key, lists the blacklist again and draws the screen. The selected index outlives
the rows that it pointed into: drawing marks the row at the index, if there is one and if it fits
on the screen, and only then moves an index past the end to the last row.
-/

namespace KWatch.Top

/-- What `render` shows of the rows: the view, and in the firewall view the rows that fit with a
mark on the selected one. -/
structure Screen where
  view : View
  lines : List (FirewallRow × Bool)
  deriving DecidableEq, Repr

/-- The loop that draws the rows, from a row and a line on. -/
def drawRows (selected maxY : ℤ) : List FirewallRow → ℤ → ℤ → List (FirewallRow × Bool)
  | [], _, _ => []
  | row :: rows, i, line =>
    if line < maxY - 2 then (row, i = selected) :: drawRows selected maxY rows (i + 1) (line + 1)
    else []

/-- An index past the end moves to the last row, after the rows were drawn. -/
def clampSelected (selected : ℤ) (rows : List FirewallRow) : ℤ :=
  if rows.length ≤ selected ∧ rows ≠ [] then rows.length - 1 else selected

def render (a : App) (rows : List FirewallRow) (maxY : ℤ) : App × Screen :=
  match a.currentView with
  | .firewall =>
    ({ a with firewallSelectedIndex := clampSelected a.firewallSelectedIndex rows },
      ⟨.firewall, drawRows a.firewallSelectedIndex maxY rows 0 5⟩)
  | view => (a, ⟨view, []⟩)

/-- The key of the entry that a row shows. -/
def rowKey (row : FirewallRow) : LpmKey := ⟨row.prefixlen, row.ip⟩

/-- The rows that are marked. -/
def marked (lines : List (FirewallRow × Bool)) : List FirewallRow :=
  (lines.filter Prod.snd).map Prod.fst

/-- The dashboard between the steps of its ticks, with what it drew last. A key is handled after
the screen was drawn. -/
structure TopScreen where
  app : App
  firewall : FirewallState
  screen : Screen
  drawn : Bool

/-- The two halves of a tick: a key with its answer, and the refresh with the drawing, at which the
blacklist is anything that it has become and the terminal has any height. -/
inductive TickStep
  | key (ch : Key) (answer : Option Text)
  | draw (call : FirewallCall) (maxY : ℤ)

namespace TopScreen

/-- The screen is drawn once before the first tick. -/
def start (maxY : ℤ) : TopScreen :=
  ⟨App.start, ⟨[], .empty⟩, (render App.start [] maxY).2, true⟩

def step (s : TopScreen) : TickStep → Option TopScreen
  | .key ch answer =>
    if s.drawn ∧ s.app.running then
      some { s with app := (s.app.handleInput s.firewall.rows ch answer).1, drawn := false }
    else none
  | .draw call maxY =>
    if s.drawn then none
    else
      let firewall := call.refresh s.firewall.metas
      let drawn := render s.app firewall.rows maxY
      some ⟨drawn.1, firewall, drawn.2, true⟩

/-- A key that is handled next deletes no entry but the one that is marked in the firewall view. -/
def DeletesMarked (s : TopScreen) : Prop :=
  ∀ ch answer s' k, s.step (.key ch answer) = some s' →
    (s.app.handleInput s.firewall.rows ch answer).2 = .mapDelete k →
    s.screen.view = .firewall ∧ (marked s.screen.lines).map rowKey = [k]

/-- What has to hold when the firewall view is drawn: there is no entry, or the selected index is
that of one, and its row fits on the screen. -/
def DrawsSelected (s : TopScreen) : TickStep → Prop
  | .key _ _ => True
  | .draw call maxY => s.app.running = true → s.app.currentView = .firewall →
    call.keys = [] ∨
      s.app.firewallSelectedIndex < call.keys.length ∧ s.app.firewallSelectedIndex < maxY - 7

end TopScreen

variable {a : App} {rows : List FirewallRow} {ch : Key} {answer : Option Text} {k : LpmKey}
  {selected maxY : ℤ}

/-! ### Drawing -/

/-- The row at the index is marked when it fits. -/
theorem marked_drawRows (rows : List FirewallRow) (i : ℤ) :
    marked (drawRows selected maxY rows i (i + 5)) =
      if i ≤ selected ∧ selected < maxY - 7 then (rows[(selected - i).toNat]?).toList else [] := by
  induction rows generalizing i with
  | nil =>
    rw [drawRows]
    split <;> rfl
  | cons row rows ih =>
    rw [drawRows]
    by_cases hfit : i + 5 < maxY - 2
    · have hrest := ih (i + 1)
      rw [show i + 1 + 5 = i + 5 + 1 by ring] at hrest
      rw [if_pos hfit]
      rcases lt_trichotomy i selected with hlt | rfl | hgt
      · have hne : ¬ i = selected := hlt.ne
        have hidx : (selected - i).toNat = (selected - (i + 1)).toNat + 1 := by omega
        rw [hidx, List.getElem?_cons_succ]
        have hcond : (i ≤ selected ∧ selected < maxY - 7) ↔
            (i + 1 ≤ selected ∧ selected < maxY - 7) := by omega
        rw [if_congr hcond rfl rfl, ← hrest]
        simp [marked, hne]
      · rw [if_neg (by omega)] at hrest
        rw [if_pos ⟨le_rfl, by omega⟩, Int.sub_self]
        simpa [marked] using hrest
      · rw [if_neg (by omega)] at hrest
        rw [if_neg (by omega)]
        have hne : ¬ i = selected := hgt.ne'
        simpa [marked, hne] using hrest
    · rw [if_neg hfit, if_neg (by omega)]
      rfl

theorem clampSelected_nonneg (h : 0 ≤ selected) : 0 ≤ clampSelected selected rows := by
  rw [clampSelected]
  split
  · rename_i hc
    have := List.length_pos_of_ne_nil hc.2
    omega
  · exact h

theorem clampSelected_lt (hne : rows ≠ []) : clampSelected selected rows < rows.length := by
  rw [clampSelected]
  split
  · omega
  · rename_i hc
    by_contra hlt
    exact hc ⟨by omega, hne⟩

/-! ### Keys -/

/-- Only the delete key in the firewall view deletes, and it deletes the entry at the index. -/
theorem handleInput_mapDelete (h : (a.handleInput rows ch answer).2 = .mapDelete k) :
    a.currentView = .firewall ∧ 0 ≤ a.firewallSelectedIndex ∧
      ∃ row, rows[a.firewallSelectedIndex.toNat]? = some row ∧ k = rowKey row := by
  unfold App.handleInput at h
  split_ifs at h
  split at h
  · rename_i hview
    refine ⟨hview, ?_⟩
    unfold App.firewallInput at h
    split_ifs at h with _ _ _ hd
    · split at h <;> cases h
    · split at h
      · rename_i row hrow
        cases h
        exact ⟨hd.2, row, hrow, rfl⟩
      · cases h
  · unfold App.demosInput at h
    dsimp only at h
    split_ifs at h
    · split at h <;> cases h
    · split at h <;> cases h
    · split at h <;> cases h
  · cases h

theorem handleInput_delete {row : FirewallRow} (hview : a.currentView = .firewall)
    (h0 : 0 ≤ a.firewallSelectedIndex)
    (hrow : rows[a.firewallSelectedIndex.toNat]? = some row) :
    (a.handleInput rows (.char 'd') none).2 = .mapDelete (rowKey row) := by
  simp [App.handleInput, App.firewallInput, hview, h0, hrow, rowKey]

theorem handleInput_index_nonneg (h : 0 ≤ a.firewallSelectedIndex) :
    0 ≤ (a.handleInput rows ch answer).1.firewallSelectedIndex := by
  unfold App.handleInput
  split_ifs
  · exact h
  · exact h
  · exact h
  · exact h
  · exact h
  · split
    · unfold App.firewallInput
      split_ifs with hup hdown
      · dsimp only
        omega
      · dsimp only
        omega
      · split <;> exact h
      · split <;> exact h
      · exact h
    · unfold App.demosInput
      dsimp only
      split_ifs <;> first | exact h | (split <;> exact h)
    · exact h

/-! ### One step -/

/-- The rows of a call are those of its entries. -/
theorem FirewallCall.length_rows (c : FirewallCall) (metas : Table UInt64 FirewallMeta) :
    (c.refresh metas).rows.length = c.keys.length := by
  have hfold : ∀ (keys : List LpmKey) (s : FirewallState),
      (keys.foldl (refreshEntry c.nowNs c.droppedTotal) s).rows.length =
        s.rows.length + keys.length := by
    intro keys
    induction keys with
    | nil => exact fun s => rfl
    | cons key keys ih =>
      intro s
      rw [List.foldl_cons, ih]
      simp only [refreshEntry, List.length_append, List.length_cons, List.length_nil]
      omega
  rw [c.refresh_eq, hfold]
  simp

namespace TopScreen

variable {s s' : TopScreen} {st : TickStep} {call : FirewallCall} {steps : List TickStep}

/-- Between a key and the next drawing no key is handled. -/
theorem deletesMarked_of_not_drawn (h : s.drawn = false) : s.DeletesMarked := by
  rintro ch answer s' k hs
  rw [step, h] at hs
  cases hs

/-- Outside of the firewall view nothing is deleted. -/
theorem deletesMarked_of_view (h : s.app.currentView ≠ .firewall) : s.DeletesMarked := by
  rintro ch answer s' k _ hdel
  exact absurd (handleInput_mapDelete hdel).1 h

theorem render_other (h : a.currentView ≠ .firewall) (rows : List FirewallRow) (maxY : ℤ) :
    (render a rows maxY).1 = a := by
  rw [render]
  cases hview : a.currentView with
  | firewall => exact absurd hview h
  | _ => rfl

theorem render_firewall (h : a.currentView = .firewall) (rows : List FirewallRow) (maxY : ℤ) :
    render a rows maxY =
      ({ a with firewallSelectedIndex := clampSelected a.firewallSelectedIndex rows },
        ⟨.firewall, drawRows a.firewallSelectedIndex maxY rows 0 5⟩) := by
  rw [render, h]

theorem render_running (a : App) (rows : List FirewallRow) (maxY : ℤ) :
    (render a rows maxY).1.running = a.running := by
  rw [render]
  split <;> rfl

/-- In the firewall view the next deletion is right if the selected row was there and fitted, and
only then, unless there is nothing to delete. -/
theorem deletesMarked_firewall (h0 : 0 ≤ a.firewallSelectedIndex)
    (hview : a.currentView = .firewall) (hrun : a.running = true) (firewall : FirewallState)
    (maxY : ℤ) :
    DeletesMarked ⟨(render a firewall.rows maxY).1, firewall, (render a firewall.rows maxY).2,
        true⟩ ↔
      firewall.rows = [] ∨ a.firewallSelectedIndex < firewall.rows.length ∧
        a.firewallSelectedIndex < maxY - 7 := by
  have hmarked := @marked_drawRows a.firewallSelectedIndex maxY firewall.rows 0
  rw [Int.zero_add, Int.sub_zero] at hmarked
  rw [render_firewall hview]
  constructor
  · rintro h
    by_contra hbad
    rw [not_or] at hbad
    obtain ⟨hne, hbad⟩ := hbad
    -- the index is that of a row after it was moved
    have hlt : clampSelected a.firewallSelectedIndex firewall.rows < firewall.rows.length :=
      clampSelected_lt hne
    have hge : 0 ≤ clampSelected a.firewallSelectedIndex firewall.rows :=
      clampSelected_nonneg h0
    obtain ⟨row, hrow⟩ : ∃ row, firewall.rows[(clampSelected a.firewallSelectedIndex
        firewall.rows).toNat]? = some row :=
      ⟨_, List.getElem?_eq_getElem (by omega)⟩
    obtain ⟨_, hkey⟩ := h (.char 'd') none _ _ (if_pos ⟨rfl, hrun⟩)
      (handleInput_delete hview hge hrow)
    dsimp only at hkey
    rw [hmarked] at hkey
    split at hkey
    · rename_i hfit
      have hnone : firewall.rows[a.firewallSelectedIndex.toNat]? = none := by
        rw [List.getElem?_eq_none_iff]
        omega
      rw [hnone] at hkey
      cases hkey
    · cases hkey
  · rintro h ch answer s' k hs hdel
    obtain ⟨_, hge, row, hrow, rfl⟩ := handleInput_mapDelete hdel
    refine ⟨rfl, ?_⟩
    dsimp only at hrow hge ⊢
    rcases h with hnil | ⟨hlt, hfit⟩
    · rw [hnil] at hrow
      cases hrow
    · have hclamp : clampSelected a.firewallSelectedIndex firewall.rows =
          a.firewallSelectedIndex := by
        rw [clampSelected, if_neg (by omega)]
      rw [hclamp] at hrow
      rw [hmarked, if_pos ⟨h0, hfit⟩, hrow]
      rfl

/-- What one drawing leads to. -/
theorem deletesMarked_draw_iff (h0 : 0 ≤ s.app.firewallSelectedIndex) {maxY : ℤ}
    (hs : s.step (.draw call maxY) = some s') :
    s'.DeletesMarked ↔ s.DrawsSelected (.draw call maxY) := by
  rw [step] at hs
  split at hs
  · cases hs
  · cases hs
    by_cases hrun : s.app.running = true
    · by_cases hview : s.app.currentView = .firewall
      · rw [deletesMarked_firewall h0 hview hrun, FirewallCall.length_rows,
          ← List.length_eq_zero_iff, FirewallCall.length_rows, List.length_eq_zero_iff]
        exact ⟨fun h _ _ => h, fun h => h hrun hview⟩
      · constructor
        · exact fun _ _ h => absurd h hview
        · intro _
          apply deletesMarked_of_view
          dsimp only
          rwa [render_other hview]
    · constructor
      · exact fun _ h => absurd h hrun
      · rintro _ ch answer s' k hs
        rw [step, if_neg] at hs
        · cases hs
        · rintro ⟨_, hr⟩
          rw [render_running] at hr
          exact hrun hr

theorem index_nonneg (h0 : 0 ≤ s.app.firewallSelectedIndex) (hs : s.step st = some s') :
    0 ≤ s'.app.firewallSelectedIndex := by
  cases st with
  | key ch answer =>
    rw [step] at hs
    split at hs
    · cases hs
      exact handleInput_index_nonneg h0
    · cases hs
  | draw call maxY =>
    rw [step] at hs
    split at hs
    · cases hs
    · cases hs
      by_cases hview : s.app.currentView = .firewall
      · rw [render_firewall hview]
        exact clampSelected_nonneg h0
      · rw [render_other hview]
        exact h0

/-- The next deletion is right after a step if and only if the step drew what is selected. -/
theorem deletesMarked_iff (h0 : 0 ≤ s.app.firewallSelectedIndex) (hs : s.step st = some s') :
    s'.DeletesMarked ↔ s.DrawsSelected st := by
  cases st with
  | key ch answer =>
    refine iff_of_true ?_ trivial
    apply deletesMarked_of_not_drawn
    rw [step] at hs
    split at hs
    · cases hs
      rfl
    · cases hs
  | draw call maxY => exact deletesMarked_draw_iff h0 hs

/-! ### Runs -/

/-- Every deletion of a run is that of the entry that was marked when the screen was last drawn, if
and only if every drawing of the firewall view had its selected row on the screen. -/
theorem deletesMarked_run_iff {maxY : ℤ} (hrun : Run.exec step (start maxY) steps = some s) :
    (∀ past s, past <+: steps → Run.exec step (start maxY) past = some s → s.DeletesMarked) ↔
      Run.Meets step DrawsSelected (start maxY) steps := by
  induction steps using List.reverseRecOn generalizing s with
  | nil =>
    refine iff_of_true ?_ trivial
    rintro past s hp hs
    rw [List.prefix_nil.mp hp] at hs
    cases hs
    apply deletesMarked_of_view
    exact nofun
  | append_singleton steps st ih =>
    rw [Run.exec_append, Option.bind_eq_some_iff] at hrun
    obtain ⟨s₁, hrun₁, hstep⟩ := hrun
    have h0 : 0 ≤ s₁.app.firewallSelectedIndex :=
      Run.invariant (fun _ _ _ h _ hs => index_nonneg h hs) (le_refl (0 : ℤ))
        (Run.meets_true (start maxY) steps) hrun₁
    rw [Run.meets_append, ← ih hrun₁]
    constructor
    · rintro h
      refine ⟨fun past s hp => h past s (hp.trans (List.prefix_append steps [st])), ?_⟩
      rintro s' hs'
      rw [hrun₁] at hs'
      cases hs'
      apply (deletesMarked_iff h0 hstep).mp
      apply h _ _ List.prefix_rfl
      rw [Run.exec_append, hrun₁]
      exact hstep
    · rintro ⟨hpast, hlast⟩ past s' hp hs'
      rcases List.prefix_concat_iff.mp hp with rfl | hp
      · rw [Run.exec_append, hrun₁] at hs'
        have heq : s₁.step st = some s' := hs'
        exact (deletesMarked_iff h0 heq).mpr (hlast s₁ hrun₁)
      · exact hpast past s' hp hs'

/-! ### An entry that goes away -/

/-- A blacklist with two addresses. -/
def twoEntries : LpmTrie := (oneEntry.update (hostKey 8) 1).getD .empty

/-- The second of two entries is selected, and then one of them is removed elsewhere. -/
def shrunk : List TickStep :=
  [.key (.char '3') none, .draw (callOn twoEntries 1 0) 24, .key .down none,
    .draw (callOn twoEntries 2 0) 24, .key .other none, .draw (callOn oneEntry 3 0) 24]

theorem deletesMarked_before_shrunk : ∃ s,
    Run.exec step (start 24) (shrunk.take 4) = some s ∧ s.DeletesMarked := by
  have hrun : ∃ s, Run.exec step (start 24) (shrunk.take 4) = some s := ⟨_, rfl⟩
  obtain ⟨s, hs⟩ := hrun
  refine ⟨s, hs, (deletesMarked_run_iff hs).mpr ?_ _ s List.prefix_rfl hs⟩
  refine ⟨trivial, ?_⟩
  rintro s₁ ⟨⟩
  refine ⟨fun _ _ => Or.inr ⟨by decide, by decide⟩, ?_⟩
  rintro s₂ ⟨⟩
  refine ⟨trivial, ?_⟩
  rintro s₃ ⟨⟩
  exact ⟨fun _ _ => Or.inr ⟨by decide, by decide⟩, fun _ _ => trivial⟩

/-- Nothing was marked, and the next key deletes what is left. -/
theorem not_deletesMarked_shrunk : ∃ s,
    Run.exec step (start 24) shrunk = some s ∧ ¬ s.DeletesMarked := by
  refine ⟨_, rfl, ?_⟩
  rintro h
  have hmarked := (h (.char 'd') none _ (hostKey 7) rfl rfl).2
  revert hmarked
  decide

end TopScreen

end KWatch.Top
