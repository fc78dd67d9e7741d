import SignalEngine.Proofs.Session.History
import SignalEngine.Strategy.Basic

/-!
A candle of the past teaches a strategy as much as a candle of the present. What is done about a candle
of the present, the stop, the last buy and the latest signals, stays outside of what is learned: no
indicator, no band and no ring is ever computed from it. So it does not matter to what a strategy has
learned, and to what it shows, which candles of a history are of which kind.
-/

namespace SignalEngine

namespace SuperTrend

/-- The same has been learned. The stop and the last buy may differ. -/
structure State.Alike (s t : State) : Prop where
  config : s.config = t.config
  range : s.range = t.range
  bands : s.bands = t.bands
  lastClose : s.lastClose = t.lastClose
  age : s.age = t.age
  confidence : s.confidence = t.confidence

namespace State.Alike

variable {s t u : State}

theorem refl (s : State) : s.Alike s :=
  ⟨rfl, rfl, rfl, rfl, rfl, rfl⟩

theorem symm (h : s.Alike t) : t.Alike s :=
  ⟨h.config.symm, h.range.symm, h.bands.symm, h.lastClose.symm, h.age.symm, h.confidence.symm⟩

theorem trans (h : s.Alike t) (h' : t.Alike u) : s.Alike u :=
  ⟨h.config.trans h'.config, h.range.trans h'.range, h.bands.trans h'.bands,
    h.lastClose.trans h'.lastClose, h.age.trans h'.age, h.confidence.trans h'.confidence⟩

theorem preload (h : s.Alike t) (c : Candle) : (s.preload c).Alike (t.preload c) := by
  obtain ⟨config, range, stop, bands, lastClose, age, confidence, last⟩ := s
  obtain ⟨config', range', stop', bands', lastClose', age', confidence', last'⟩ := t
  obtain ⟨rfl, rfl, rfl, rfl, rfl, rfl⟩ := h
  unfold State.preload State.advance
  dsimp only
  split
  · exact ⟨rfl, rfl, rfl, rfl, rfl, rfl⟩
  · exact ⟨rfl, rfl, rfl, rfl, rfl, rfl⟩

theorem probes_eq (h : s.Alike t) : s.probes = t.probes := by
  rw [probes, probes, h.bands, h.range, h.confidence]

end State.Alike

theorem alike_leave (s : State) : s.Alike s.leave :=
  ⟨rfl, rfl, rfl, rfl, rfl, rfl⟩

theorem alike_trade (s : State) (close : Float) : s.Alike (s.trade close).1 := by
  unfold State.trade
  split
  · exact alike_leave s
  split
  · dsimp only
    split
    · exact ⟨rfl, rfl, rfl, rfl, rfl, rfl⟩
    · exact ⟨rfl, rfl, rfl, rfl, rfl, rfl⟩
  split
  · exact alike_leave s
  · exact .refl s

theorem preload_alike_update (s : State) (c : Candle) : (s.preload c).Alike (s.update c).1 := by
  rw [State.preload, State.update]
  obtain ⟨s', begun⟩ := s.advance c
  cases begun with
  | false => exact .refl s'
  | true => exact alike_trade s' c.close

end SuperTrend

namespace Agreement

/-- The same has been learned. The latest signals may differ, besides what may differ in the trend. -/
structure State.Alike (s t : State) : Prop where
  config : s.config = t.config
  superTrend : s.superTrend.Alike t.superTrend
  turtle : s.turtle = t.turtle

end Agreement

namespace Strategy

/-- Two strategies of one kind have learned the same. -/
inductive Alike : Strategy → Strategy → Prop
  | superTrend {s t : SuperTrend.State} (h : s.Alike t) : Alike (superTrend s) (superTrend t)
  | turtle (s : Turtle.State) : Alike (turtle s) (turtle s)
  | aldo (s : Aldo.State) : Alike (aldo s) (aldo s)
  | agreement {s t : Agreement.State} (h : s.Alike t) : Alike (agreement s) (agreement t)

namespace Alike

variable {s t u : Strategy}

theorem refl (s : Strategy) : s.Alike s := by
  cases s with
  | superTrend s => exact .superTrend (.refl s)
  | turtle s => exact .turtle s
  | aldo s => exact .aldo s
  | agreement s => exact .agreement ⟨rfl, .refl s.superTrend, rfl⟩

theorem symm (h : s.Alike t) : t.Alike s := by
  cases h with
  | superTrend h => exact .superTrend h.symm
  | turtle s => exact .turtle s
  | aldo s => exact .aldo s
  | agreement h => exact .agreement ⟨h.config.symm, h.superTrend.symm, h.turtle.symm⟩

theorem trans (h : s.Alike t) (h' : t.Alike u) : s.Alike u := by
  cases h with
  | superTrend h =>
      cases h' with
      | superTrend h' => exact .superTrend (h.trans h')
  | turtle s => exact h'
  | aldo s => exact h'
  | agreement h =>
      cases h' with
      | agreement h' =>
          exact .agreement ⟨h.config.trans h'.config, h.superTrend.trans h'.superTrend,
            h.turtle.trans h'.turtle⟩

theorem preload (h : s.Alike t) (c : Candle) : (s.preload c).Alike (t.preload c) := by
  cases h with
  | superTrend h => exact .superTrend (h.preload c)
  | turtle s => exact .turtle _
  | aldo s => exact .aldo _
  | agreement h =>
      have hturtle := congrArg (Turtle.State.preload · c) h.turtle
      exact .agreement ⟨h.config, h.superTrend.preload c, hturtle⟩

theorem probes_eq (h : s.Alike t) (c : Candle) : s.probes c = t.probes c := by
  cases h with
  | superTrend h => exact h.probes_eq
  | turtle s => rfl
  | aldo s => rfl
  | agreement h => exact h.superTrend.probes_eq

end Alike

/-- As much is learned from a candle of the past as from a candle of the present. -/
theorem preload_alike_update (s : Strategy) (c : Candle) : (s.preload c).Alike (s.update c).1 := by
  cases s with
  | superTrend s => exact .superTrend (SuperTrend.preload_alike_update s c)
  | turtle s => exact .turtle _
  | aldo s => exact .aldo _
  | agreement s =>
      exact .agreement ⟨rfl, SuperTrend.preload_alike_update s.superTrend c, rfl⟩

/-- The state after candles that are all of the past. -/
def afterPast (s : Strategy) (candles : List Candle) : Strategy :=
  candles.foldl preload s

theorem Alike.afterPast {s t : Strategy} (h : s.Alike t) (candles : List Candle) :
    (s.afterPast candles).Alike (t.afterPast candles) := by
  induction candles generalizing s t with
  | nil => exact h
  | cons c rest ih => exact ih (h.preload c)

theorem after_alike_afterPast (s : Strategy) (history : List Feed) :
    (Strategic.after s history).Alike (s.afterPast (history.map Feed.candle)) := by
  induction history generalizing s with
  | nil => exact .refl s
  | cons f rest ih =>
      cases f with
      | past c => exact ih (s.preload c)
      | present c =>
          have hrest := (s.preload_alike_update c).afterPast (rest.map Feed.candle)
          exact (ih (s.update c).1).trans hrest.symm

/-- Two histories with the same candles teach the same, however these are divided into candles of the
past and of the present, and the same is shown after both. -/
theorem after_alike (s : Strategy) {first second : List Feed}
    (h : first.map Feed.candle = second.map Feed.candle) :
    (Strategic.after s first).Alike (Strategic.after s second) ∧
      ∀ c, (Strategic.after s first).probes c = (Strategic.after s second).probes c := by
  -- both are compared with the history whose candles are all of the past
  have hfirst := s.after_alike_afterPast first
  rw [h] at hfirst
  have halike := hfirst.trans (s.after_alike_afterPast second).symm
  exact ⟨halike, halike.probes_eq⟩

/-- The second history opens a position. -/
theorem after_alike_opened :
    let s := superTrend (.fresh { SuperTrend.Config.standard with rangePeriod := 1 })
    let first : List Feed := [.past (.ofClose 1.0), .past (.ofClose 2.0)]
    let second : List Feed := [.past (.ofClose 1.0), .present (.ofClose 2.0)]
    first.map Feed.candle = second.map Feed.candle ∧ (Strategic.records s first).length = 0 ∧
      (Strategic.records s second).length = 1 ∧
      (Strategic.after s first).Alike (Strategic.after s second) ∧
      ∀ c, (Strategic.after s first).probes c = (Strategic.after s second).probes c :=
  ⟨rfl, by decide +kernel, by decide +kernel, after_alike _ rfl⟩

end Strategy

end SignalEngine
