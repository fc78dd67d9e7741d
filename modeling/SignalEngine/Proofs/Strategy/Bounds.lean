import SignalEngine.Proofs.Number.Monotone
import SignalEngine.Proofs.Strategy.Agreement
import SignalEngine.Proofs.Strategy.Confidence
import SignalEngine.Proofs.Strategy.Position

/-!
How sure a signal can be. All confidences are cut off at one, but only the bias keeps them from falling
below zero: a long position is opened on what has grown by the bias since the last one, or since zero.
A bias below zero is among the settings that the trend strategy can run with.
-/

namespace SignalEngine

/-- The confidence is a number of at most one, and of at least zero unless the bias is below. -/
structure Signal.Bounded (bias : Float) (g : Signal) : Prop where
  le_one : g.confidence ≤ 1.0
  nonneg : 0.0 ≤ bias → 0.0 ≤ g.confidence

theorem Signal.bounded_sure (bias : Float) (kind : SignalKind) : (sure kind).Bounded bias where
  le_one := (by decide : (1.0 : Float) ≤ 1.0)
  nonneg _ := (by decide : (0.0 : Float) ≤ 1.0)

theorem Number.nonneg_of_grown {x last bias : Float} (hx : x.isNaN = false) (hlast : 0.0 ≤ last)
    (hbias : 0.0 ≤ bias) (h : ¬ x - last < bias) : 0.0 ≤ x := by
  by_contra hneg
  have hlt : x < 0.0 := by
    by_contra hnot
    exact hneg (le_of_not_lt hx (by decide) hnot)
  exact h (lt_of_lt_of_le (sub_neg_of_neg hlt hlast) hbias)

namespace SuperTrend

/-- The last buy is no less than zero, unless the bias is. -/
structure State.Grounded (bias : Float) (s : State) : Prop where
  settings : s.config.confidenceBias = bias
  last : 0.0 ≤ bias → 0.0 ≤ s.lastBuyConfidence

section Grounded

variable {bias : Float} {s : State} (h : s.Grounded bias)

include h

theorem grounded_advance (c : Candle) : (s.advance c).1.Grounded bias := by
  obtain ⟨hconfig, -, hlast⟩ := s.advance_frame c
  refine ⟨?_, ?_⟩
  · rw [hconfig]
    exact h.settings
  · rw [hlast]
    exact h.last

theorem grounded_leave : s.leave.Grounded bias :=
  ⟨h.settings, fun _ => (by decide : (0.0 : Float) ≤ 0.0)⟩

theorem bounded_buy (hgrown : ¬ s.buyConfidence - s.lastBuyConfidence < s.config.confidenceBias) :
    (Signal.mk .openLong s.buyConfidence).Bounded bias where
  le_one := Number.smaller_le_one _
  nonneg hbias := by
    rw [h.settings] at hgrown
    exact Number.nonneg_of_grown (Number.isNaN_smaller_one _) (h.last hbias) hbias hgrown

theorem grounded_trade {close : Float} {t : State} {signal : Option Signal}
    (htrades : s.Trades close t signal) :
    t.Grounded bias ∧ ∀ g ∈ signal, g.Bounded bias := by
  cases htrades with
  | stopped htriggered =>
      refine ⟨grounded_leave h, ?_⟩
      rintro g ⟨⟩
      exact Signal.bounded_sure bias _
  | held habove hsmall => exact ⟨⟨h.settings, h.last⟩, nofun⟩
  | bought habove hgrown =>
      have hbuy := bounded_buy h hgrown
      refine ⟨⟨h.settings, hbuy.nonneg⟩, ?_⟩
      rintro g ⟨⟩
      exact hbuy
  | sold hbelow =>
      refine ⟨grounded_leave h, ?_⟩
      rintro g ⟨⟩
      exact Signal.bounded_sure bias _
  | rested hline => exact ⟨h, nofun⟩

theorem grounded_update (c : Candle) :
    (s.update c).1.Grounded bias ∧ ∀ g ∈ (s.update c).2, g.Bounded bias := by
  have hadvance := grounded_advance h c
  rcases s.update_cases c with ⟨-, hstate, hnone⟩ | ⟨-, htrades⟩
  · rw [hstate, hnone]
    exact ⟨hadvance, nofun⟩
  · exact grounded_trade hadvance htrades

end Grounded

theorem exists_grounded (config : Config) (history : List Feed) :
    ∃ s : State, Strategic.after config.opened history = .superTrend s ∧
      s.Grounded config.confidenceBias := by
  have hfresh : (State.fresh config).Grounded config.confidenceBias :=
    ⟨rfl, fun _ => (by decide : (0.0 : Float) ≤ 0.0)⟩
  apply Strategic.exists_after Strategy.superTrend
    (fun s _ => s.Grounded config.confidenceBias) hfresh
  intro s _ hs f
  cases f with
  | past c => exact ⟨s.preload c, rfl, grounded_advance hs c⟩
  | present c => exact ⟨(s.update c).1, rfl, (grounded_update hs c).1⟩

theorem bounded_update (config : Config) (history : List Feed) (c : Candle) :
    ∀ g ∈ ((Strategic.after config.opened history).update c).2, g.Bounded config.confidenceBias := by
  obtain ⟨s, hafter, hs⟩ := exists_grounded config history
  rw [hafter]
  exact (grounded_update hs c).2

end SuperTrend

theorem Turtle.bounded_update (bias : Float) (s : Turtle.State) (history : List Feed) (c : Candle) :
    ∀ g ∈ ((Strategic.after (Strategy.turtle s) history).update c).2, g.Bounded bias := by
  induction history generalizing s with
  | nil =>
      intro g hg
      obtain ⟨kind, rfl⟩ := Turtle.exists_sure hg
      exact Signal.bounded_sure bias kind
  | cons f rest ih =>
      cases f with
      | past c' => exact ih (s.preload c')
      | present c' => exact ih (s.update c').1

theorem Aldo.bounded_update (bias : Float) (s : Aldo.State) (history : List Feed) (c : Candle) :
    ∀ g ∈ ((Strategic.after (Strategy.aldo s) history).update c).2, g.Bounded bias := by
  induction history generalizing s with
  | nil =>
      intro g hg
      obtain ⟨kind, rfl⟩ := Aldo.exists_sure hg
      exact Signal.bounded_sure bias kind
  | cons f rest ih =>
      cases f with
      | past c' => exact ih (s.preload c')
      | present c' => exact ih (s.update c').1

namespace Agreement

theorem exists_of_latched {replace : Bool} {answers : List (Candle × Option Signal)} {g : Signal}
    (h : latched replace answers = some g) : ∃ answer ∈ answers, answer.2 = some g := by
  cases replace with
  | true =>
      obtain ⟨answer, hlast, hsignal⟩ := Option.bind_eq_some_iff.1 h
      exact ⟨answer, List.mem_of_getLast? hlast, hsignal⟩
  | false => exact List.mem_filterMap.1 (List.mem_of_getLast? h)

theorem bounded_update (config : Config) (history : List Feed) (c : Candle) :
    ∀ g ∈ ((Strategic.after (Strategy.agreement (.fresh config)) history).update c).2,
      g.Bounded config.superTrend.confidenceBias := by
  intro g hg
  obtain ⟨s, hafter, hproduct⟩ := exists_isProduct config history
  rw [hafter] at hg
  have hlatest := ((s.update c).1.agreed?_eq_some g).1 hg
  rw [(hproduct.update c).superTrendSignal] at hlatest
  obtain ⟨answer, hanswer, hsignal⟩ := exists_of_latched hlatest.1
  obtain ⟨before, c', rfl⟩ := Strategic.exists_of_mem_answers hanswer
  exact SuperTrend.bounded_update config.superTrend before c' g hsignal

end Agreement

/-- The settings of a strategy of one of the kinds. -/
inductive StrategyConfig where
  | superTrend (config : SuperTrend.Config)
  | turtle (config : Turtle.Config)
  | aldo (config : Aldo.Config)
  | agreement (config : Agreement.Config)

namespace StrategyConfig

def validate : StrategyConfig → Except ConfigFault Unit
  | superTrend config => config.validate
  | turtle config => config.validate
  | aldo config => config.validate
  | agreement config => config.validate

def opened : StrategyConfig → Strategy
  | superTrend config => .superTrend (.fresh config)
  | turtle config => .turtle (.fresh config)
  | aldo config => .aldo (.fresh config)
  | agreement config => .agreement (.fresh config)

/-- The bias of the confidence, if there is one. -/
def bias? : StrategyConfig → Option Float
  | superTrend config => some config.confidenceBias
  | turtle _ => none
  | aldo _ => none
  | agreement config => some config.superTrend.confidenceBias

end StrategyConfig

/-- Whatever settings a strategy runs with and whatever it has seen, a signal has a confidence that is
a number of at most one; and of at least zero, if the settings have no bias below zero. -/
theorem confidence_bounds (config : StrategyConfig) (history : List Feed) (c : Candle) :
    ∀ g ∈ ((Strategic.after config.opened history).update c).2,
      g.confidence ≤ 1.0 ∧ ((∀ bias ∈ config.bias?, 0.0 ≤ bias) → 0.0 ≤ g.confidence) := by
  intro g hg
  cases config with
  | superTrend config =>
      have hbounded := SuperTrend.bounded_update config history c g hg
      exact ⟨hbounded.le_one, fun hbias => hbounded.nonneg (hbias _ rfl)⟩
  | turtle config =>
      have hbounded := Turtle.bounded_update 0.0 (.fresh config) history c g hg
      exact ⟨hbounded.le_one, fun _ => hbounded.nonneg (by decide)⟩
  | aldo config =>
      have hbounded := Aldo.bounded_update 0.0 (.fresh config) history c g hg
      exact ⟨hbounded.le_one, fun _ => hbounded.nonneg (by decide)⟩
  | agreement config =>
      have hbounded := Agreement.bounded_update config history c g hg
      exact ⟨hbounded.le_one, fun hbias => hbounded.nonneg (hbias _ rfl)⟩

/-- A position is opened, less than half as sure as could be. -/
theorem confidence_bounds_opened :
    let config := StrategyConfig.superTrend
      { SuperTrend.Config.standard with rangePeriod := 1, confidenceMultiplier := 5.0 }
    let history : List Feed := [.past (.ofPrices 0 100.0 101.0 99.0 100.0 0.0)]
    let c := Candle.ofPrices 1 100.0 101.0 99.0 100.5 0.0
    (∀ bias ∈ config.bias?, 0.0 ≤ bias) ∧
      ∃ g ∈ ((Strategic.after config.opened history).update c).2, g.kind = .openLong ∧
        0.0 ≤ g.confidence ∧ g.confidence ≤ 1.0 ∧ g.confidence < 0.5 := by
  intro config history c
  have hbias : ∀ bias ∈ config.bias?, 0.0 ≤ bias := by
    rintro bias ⟨⟩
    decide +kernel
  have hopened : ((Strategic.after config.opened history).update c).2.any
      (fun g => g.kind == .openLong && decide (g.confidence < 0.5)) = true := by decide +kernel
  obtain ⟨g, hg, hsignal⟩ := (Option.any_eq_true _ _).1 hopened
  rw [Bool.and_eq_true, beq_iff_eq, decide_eq_true_eq] at hsignal
  obtain ⟨hle, hnonneg⟩ := confidence_bounds config history c g hg
  exact ⟨hbias, g, hg, hsignal.1, hnonneg hbias, hle, hsignal.2⟩

/-- With a bias below zero a position may be opened at a confidence below zero. -/
theorem confidence_negative :
    let config := StrategyConfig.superTrend ⟨1, 0.0, 3.5, 20.0, -10.0⟩
    let history : List Feed := [.present (.ofPrices 0 100.0 100.0 100.0 100.0 0.0)]
    let c := Candle.ofPrices 1 50.0 80.0 20.0 80.0 0.0
    config.validate = .ok () ∧ (∀ x ∈ history.map Feed.candle ++ [c], x.isFinite = true) ∧
      ∃ g ∈ ((Strategic.after config.opened history).update c).2,
        g.kind = .openLong ∧ ¬ (0.0 ≤ g.confidence ∧ g.confidence ≤ 1.0) := by
  intro config history c
  have hopened : ((Strategic.after config.opened history).update c).2.any
      (fun g => g.kind == .openLong && !decide (0.0 ≤ g.confidence)) = true := by decide +kernel
  obtain ⟨g, hg, hsignal⟩ := (Option.any_eq_true _ _).1 hopened
  rw [Bool.and_eq_true, beq_iff_eq, Bool.not_eq_true', decide_eq_false_iff_not] at hsignal
  exact ⟨rfl, by decide +kernel, g, hg, hsignal.1, fun hbounds => hsignal.2 hbounds.1⟩

end SignalEngine
