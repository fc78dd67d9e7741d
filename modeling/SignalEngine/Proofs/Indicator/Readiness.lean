import SignalEngine.Indicator.Basic
import SignalEngine.Proofs.Indicator.Deviation
import SignalEngine.Proofs.Indicator.RunningSum
import SignalEngine.Proofs.Indicator.TrueRange

/-!
When indicators become ready. The flags are set from counters and from other flags, never from a
price, so each kind of indicator is ready from one update on, and that update is known beforehand.
An indicator that is made of others is late: the smoothed average by the candle on which it changes
over, and the strength index by three, since its averages miss the first candle and have to be ready
before the last one.
-/

namespace SignalEngine

theorem Ema.ready_foldl (period : Nat) (candles : List Candle) :
    (candles.foldl update (fresh period)).ready = decide (1 ≤ candles.length) := by
  apply foldl_history (fun s candles => Ema.ready s = decide (1 ≤ candles.length)) rfl
  intro s candles hs c
  have hready : (s.update c).ready = true := by
    rw [update]
    split
    case isTrue h => exact h
    case isFalse => rfl
  rw [hready, List.length_append, List.length_singleton, decide_eq_true (Nat.le_add_left 1 _)]

theorem Macd.ready_foldl (fast slow signal : Nat) (candles : List Candle) :
    (candles.foldl update (fresh fast slow signal)).ready = decide (1 ≤ candles.length) := by
  apply foldl_history (fun s candles => Macd.ready s = decide (1 ≤ candles.length)) rfl
  intro s candles hs c
  rw [List.length_append, List.length_singleton, decide_eq_true (Nat.le_add_left 1 _)]
  rfl

namespace Smma

/-- The counters of an average after so many updates. -/
structure Counts (s : Smma) (period updates : Nat) : Prop where
  span : s.period = period
  age : s.age = updates
  ready : s.ready = decide (period + 1 ≤ updates)

theorem Counts.fresh (period : Nat) : (Smma.fresh period).Counts period 0 where
  span := rfl
  age := rfl
  ready := (decide_eq_false (Nat.not_succ_le_zero period)).symm

theorem Counts.update {s : Smma} {period updates : Nat} (h : s.Counts period updates) (c : Candle) :
    (s.update c).Counts period (updates + 1) := by
  rw [Smma.update]
  dsimp only
  split
  case isTrue hle =>
    rw [h.age, h.span] at hle
    refine ⟨h.span, congrArg (· + 1) h.age, ?_⟩
    rw [h.ready, decide_eq_false (by omega), decide_eq_false (by omega)]
  case isFalse hlt =>
    rw [h.age, h.span] at hlt
    exact ⟨h.span, congrArg (· + 1) h.age, (decide_eq_true (Nat.lt_of_not_le hlt)).symm⟩

theorem counts_foldl (period : Nat) (candles : List Candle) :
    (candles.foldl update (fresh period)).Counts period candles.length := by
  apply foldl_history (fun s candles => Counts s period candles.length) (.fresh period)
  intro s candles hs c
  rw [List.length_append, List.length_singleton]
  exact hs.update c

end Smma

namespace Rsi

/-- The counters of an index after so many updates. Its averages have had one less. -/
structure Counts (s : Rsi) (period updates : Nat) : Prop where
  seeded : s.lastPrice.isSome = decide (1 ≤ updates)
  up : s.up.Counts period (updates - 1)
  down : s.down.Counts period (updates - 1)
  ready : s.ready = decide (period + 3 ≤ updates)

namespace Counts

variable {s : Rsi} {period updates : Nat}

theorem fresh (period : Nat) : (Rsi.fresh period).Counts period 0 where
  seeded := rfl
  up := .fresh period
  down := .fresh period
  ready := (decide_eq_false (Nat.not_succ_le_zero _)).symm

theorem seed (h : s.Counts period 0) (c : Candle) : (s.update c).Counts period 1 := by
  have hnone : s.lastPrice = none := by
    rw [← Option.not_isSome_iff_eq_none, h.seeded]
    decide
  have hstep : s.update c = { s with lastPrice := some c.close } := by
    rw [update, hnone]
  rw [hstep]
  exact ⟨rfl, h.up, h.down, h.ready⟩

theorem move (h : s.Counts period (updates + 1)) (c : Candle) :
    (s.update c).Counts period (updates + 2) := by
  have hseeded := h.seeded.trans (decide_eq_true (Nat.le_add_left 1 _))
  obtain ⟨last, hlast⟩ := Option.isSome_iff_exists.1 hseeded
  rw [update, hlast]
  constructor
  case seeded => exact (decide_eq_true (Nat.le_add_left 1 _)).symm
  case up => exact h.up.update _
  case down => exact h.down.update _
  case ready =>
    -- the flags of the averages are those from before this candle
    dsimp only
    rw [h.ready, h.up.ready, h.down.ready, Bool.and_self, ← Bool.decide_or]
    apply decide_eq_decide.2
    omega

theorem update (h : s.Counts period updates) (c : Candle) :
    (s.update c).Counts period (updates + 1) := by
  cases updates with
  | zero => exact h.seed c
  | succ n => exact h.move c

end Counts

theorem counts_foldl (period : Nat) (candles : List Candle) :
    (candles.foldl update (fresh period)).Counts period candles.length := by
  apply foldl_history (fun s candles => Counts s period candles.length) (.fresh period)
  intro s candles hs c
  rw [List.length_append, List.length_singleton]
  exact hs.update c

end Rsi

namespace Indicator

/-- An indicator that has seen nothing, none of whose periods is zero. -/
inductive Fresh : Indicator → Prop
  | sma {period : Nat} (h : 0 < period) : Fresh (.sma (.fresh period))
  | ema {period : Nat} (h : 0 < period) : Fresh (.ema (.fresh period))
  | smma {period : Nat} (h : 0 < period) : Fresh (.smma (.fresh period))
  | rsi {period : Nat} (h : 0 < period) : Fresh (.rsi (.fresh period))
  | cci {period : Nat} (h : 0 < period) (constant : Float) :
      Fresh (.cci (.withConstant period constant))
  | atr {period : Nat} (h : 0 < period) : Fresh (.atr (.fresh period))
  | macd {fast slow signal : Nat} (hfast : 0 < fast) (hslow : 0 < slow) (hsignal : 0 < signal) :
      Fresh (.macd (.fresh fast slow signal))

/-- The number of candles after which a new indicator is ready. -/
def warmUp : Indicator → Nat
  | sma s => s.period
  | ema _ => 1
  | smma s => s.period + 1
  | rsi s => s.period + 3
  | cci s => s.period
  | atr s => s.period
  | macd _ => 1

theorem ready_foldl {i : Indicator} (h : i.Fresh) (candles : List Candle) :
    (candles.foldl update i).ready = decide (i.warmUp ≤ candles.length) := by
  cases h with
  | sma hpos =>
      rw [List.foldl_hom Indicator.sma fun _ _ => rfl]
      exact (Sma.remembers_foldl hpos candles).ready
  | ema hpos =>
      rw [List.foldl_hom Indicator.ema fun _ _ => rfl]
      exact Ema.ready_foldl _ candles
  | smma hpos =>
      rw [List.foldl_hom Indicator.smma fun _ _ => rfl]
      exact (Smma.counts_foldl _ candles).ready
  | rsi hpos =>
      rw [List.foldl_hom Indicator.rsi fun _ _ => rfl]
      exact (Rsi.counts_foldl _ candles).ready
  | cci hpos constant =>
      rw [List.foldl_hom Indicator.cci fun _ _ => rfl, ← List.length_map Candle.typical]
      exact (Cci.remembers_foldl hpos constant candles).ready
  | atr hpos =>
      rw [List.foldl_hom Indicator.atr fun _ _ => rfl]
      exact (Atr.remembers_foldl hpos candles).ready
  | macd hfast hslow hsignal =>
      rw [List.foldl_hom Indicator.macd fun _ _ => rfl]
      exact Macd.ready_foldl _ _ _ candles

/-- A new indicator is ready from one update on, whatever the prices, and stays ready. -/
theorem ready_iff_warmUp_le {i : Indicator} (h : i.Fresh) (candles : List Candle) :
    ((candles.foldl update i).ready = true ↔ i.warmUp ≤ candles.length) ∧
      ∀ later, (candles.foldl update i).ready = true →
        ((candles ++ later).foldl update i).ready = true := by
  constructor
  · rw [ready_foldl h, decide_eq_true_iff]
  · intro later hready
    rw [ready_foldl h, decide_eq_true_iff] at hready ⊢
    rw [List.length_append]
    exact hready.trans (Nat.le_add_right _ _)

/-- The fourth of some prices that are no numbers makes a strength index of period one ready. -/
theorem ready_iff_warmUp_le_nan :
    let i := rsi (.fresh 1)
    let candles := List.replicate 4 (Candle.ofClose Number.nan)
    i.Fresh ∧ i.warmUp = 4 ∧ (candles.tail.foldl update i).ready = false ∧
      (candles.foldl update i).ready = true := by
  intro i candles
  have hfresh : i.Fresh := .rsi Nat.one_pos
  have hbefore := (ready_iff_warmUp_le hfresh candles.tail).1
  have hafter := (ready_iff_warmUp_le hfresh candles).1
  exact ⟨hfresh, rfl, Bool.eq_false_iff.2 fun hready => absurd (hbefore.1 hready) (by decide),
    hafter.2 (by decide)⟩

end Indicator

end SignalEngine
