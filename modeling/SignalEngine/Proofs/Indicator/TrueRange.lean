import SignalEngine.Indicator.Atr
import SignalEngine.Proofs.Number.Exact
import SignalEngine.Proofs.Window.Rolling

/-!
The average true range, told by the last candles. It reads three rings on every tick, each from its
oldest slot on, and a close always one slot before the high and the low that it goes with. So only the
close before the oldest slot is missed, and the order is that of the candles, wherever the rings begin.
-/

namespace SignalEngine

/-- The largest of a candle's own range and its two distances from the close before it. -/
def Candle.trueRange (c : Candle) (previous : Float) : Float :=
  Number.larger (Number.larger (c.high - c.low) (c.high - previous).abs) (c.low - previous).abs

namespace Atr

/-- The mean over a window of candles. The first of them has no close before it and counts with its
own range, and the others are added to that one after the other. -/
def averageRange : List Candle → Float
  | [] => 0.0
  | oldest :: later =>
      (neighbours (fun before c => c.trueRange before.close) (oldest :: later)).foldl (· + ·)
        (oldest.high - oldest.low) / Float.ofNat (oldest :: later).length

section Widen

variable {range : Float}

theorem widen_eq_larger (h : range.isNaN = false) (gap : Float) :
    widen range gap = Number.larger range gap := by
  rw [widen, Number.larger, h, if_neg Bool.false_ne_true]

theorem isNaN_widen (h : range.isNaN = false) (gap : Float) : (widen range gap).isNaN = false := by
  rw [widen]
  split
  case isTrue hlt => exact (Number.isNaN_of_lt hlt).2
  case isFalse => exact h

end Widen

theorem trueRange_eq {c : Candle} (hhigh : c.high.isFinite = true) (hlow : c.low.isFinite = true)
    (previous : Float) : trueRange c.high c.low previous = c.trueRange previous := by
  have hrange := Number.isNaN_sub hhigh hlow
  rw [trueRange, widen_eq_larger (isNaN_widen hrange _), widen_eq_larger hrange, Candle.trueRange]

theorem trueRanges_eq {window : List Candle}
    (h : ∀ c ∈ window, c.high.isFinite = true ∧ c.low.isFinite = true) :
    neighbours (fun before c => trueRange c.high c.low before.close) window =
      neighbours (fun before c => c.trueRange before.close) window := by
  apply neighbours_congr
  intro before c hc
  exact trueRange_eq (h c hc).1 (h c hc).2 before.close

/-- The true ranges that are read from rings which hold a window of candles. -/
theorem rangeAt_eq {highs lows closes : Window} {age : Int} {window : List Candle}
    (hhighs : highs.readFrom age = window.map Candle.high)
    (hlows : lows.readFrom age = window.map Candle.low)
    (hcloses : closes.readFrom age = window.map Candle.close) :
    ((List.range (window.length - 1)).map fun (i : Nat) =>
        rangeAt highs lows closes (age + (i + 1))) =
      neighbours (fun before c => trueRange c.high c.low before.close) window := by
  apply List.ext_getElem
  · rw [List.length_map, List.length_range, neighbours, List.length_zipWith, List.length_tail]
    omega
  · intro i hi _
    rw [List.length_map, List.length_range] at hi
    have hnext : i + 1 < window.length := by omega
    have hhigh := Window.get_of_readFrom_eq hhighs (i := i + 1) (by rwa [List.length_map])
    have hlow := Window.get_of_readFrom_eq hlows (i := i + 1) (by rwa [List.length_map])
    -- the close is that of the slot before
    have hclose := Window.get_of_readFrom_eq hcloses (i := i) (by rw [List.length_map]; omega)
    rw [List.getElem_map] at hhigh hlow hclose
    have hbefore : age + ((i : Int) + 1) - 1 = age + i := by omega
    simp only [neighbours, List.getElem_map, List.getElem_range, List.getElem_zipWith,
      List.getElem_tail, rangeAt, hbefore, ← hhigh, ← hlow, ← hclose, Int.natCast_add,
      Int.natCast_one]

structure Remembers (s : Atr) (period : Nat) (candles : List Candle) : Prop where
  span : s.period = period
  age : s.age = candles.length
  highs : s.highs.Rolls period (candles.map Candle.high)
  lows : s.lows.Rolls period (candles.map Candle.low)
  closes : s.closes.Rolls period (candles.map Candle.close)
  ready : s.ready = decide (period ≤ candles.length)

namespace Remembers

variable {s : Atr} {period : Nat} {candles : List Candle}

theorem fresh (hpos : 0 < period) : (Atr.fresh period).Remembers period [] where
  span := rfl
  age := rfl
  highs := .blank period
  lows := .blank period
  closes := .blank period
  ready := (decide_eq_false (Nat.not_le.2 hpos)).symm

theorem update (h : s.Remembers period candles) (hpos : 0 < period) (c : Candle) :
    (s.update c).Remembers period (candles ++ [c]) where
  span := h.span
  age := by
    rw [List.length_append, List.length_singleton, ← h.age]
    rfl
  highs := h.highs.set_map hpos h.age c
  lows := h.lows.set_map hpos h.age c
  closes := h.closes.set_map hpos h.age c
  ready := by
    rw [Atr.update, h.span, h.age, h.ready, List.length_append, List.length_singleton,
      ← Bool.decide_or]
    apply decide_eq_decide.2
    omega

end Remembers

section History

variable {period : Nat} (hpos : 0 < period)

include hpos

theorem remembers_foldl (candles : List Candle) :
    (candles.foldl update (fresh period)).Remembers period candles := by
  apply foldl_history (Remembers · period ·) (.fresh hpos)
  intro s candles hs c
  exact hs.update hpos c

theorem value_foldl {candles : List Candle} (h : candles ≠ []) :
    let s := candles.foldl update (fresh period)
    s.value = rangeSum s.highs s.lows s.closes period (s.age - 1 : Int) / Float.ofNat period := by
  obtain ⟨before, c, rfl⟩ := (List.eq_nil_or_concat candles).resolve_left h
  have hspan := (remembers_foldl hpos before).span
  rw [List.concat_eq_append, List.foldl_append, List.foldl_cons, List.foldl_nil]
  generalize before.foldl update (fresh period) = s at hspan
  subst hspan
  intro t
  have hage : (t.age - 1 : Int) = s.age := by
    have : t.age = s.age + 1 := rfl
    omega
  rw [hage]
  rfl

theorem value_eq_of_latest_eq {candles : List Candle} {oldest : Candle} {later : List Candle}
    (hlen : period ≤ candles.length) (hlatest : latest period candles = oldest :: later) :
    (candles.foldl update (fresh period)).value =
      (neighbours (fun before c => trueRange c.high c.low before.close)
        (oldest :: later)).foldl (· + ·) (oldest.high - oldest.low) / Float.ofNat period := by
  have hne : candles ≠ [] := List.length_pos_iff.1 (hpos.trans_le hlen)
  have hremembers := remembers_foldl hpos candles
  have hhighs := hremembers.highs.read_map hlen
  have hlows := hremembers.lows.read_map hlen
  have hcloses := hremembers.closes.read_map hlen
  have hcount : (oldest :: later).length = period := by
    rw [← hlatest, latest, List.length_drop]
    omega
  rw [hlatest, ← hremembers.age] at hhighs hlows hcloses
  rw [value_foldl hpos hne]
  generalize candles.foldl update (fresh period) = s at hhighs hlows hcloses ⊢
  have hage : (s.age - 1 + 1 : Int) = s.age := by omega
  have hhigh := Window.get_of_readFrom_eq hhighs (i := 0) (Nat.zero_lt_succ _)
  have hlow := Window.get_of_readFrom_eq hlows (i := 0) (Nat.zero_lt_succ _)
  rw [Int.natCast_zero, Int.add_zero] at hhigh hlow
  rw [rangeSum, hage, hhigh, hlow, ← rangeAt_eq hhighs hlows hcloses, List.foldl_map, hcount]
  rfl

end History

/-- Once there are as many candles as the period, the value is the average over the last of them, and
two histories that end in the same ones have the same value, whatever came before. -/
theorem value_eq_averageRange {period : Nat} (hpos : 0 < period) {candles : List Candle}
    (hlen : period ≤ candles.length)
    (hfinite : ∀ c ∈ latest period candles, c.high.isFinite = true ∧ c.low.isFinite = true) :
    let after := fun candles : List Candle => candles.foldl update (fresh period)
    (after candles).value = averageRange (latest period candles) ∧
      ∀ others, period ≤ others.length → latest period others = latest period candles →
        (after others).value = (after candles).value := by
  intro after
  have hcount : (latest period candles).length = period := by
    rw [latest, List.length_drop]
    omega
  obtain ⟨oldest, later, hlatest⟩ := List.exists_cons_of_length_pos (hcount.symm ▸ hpos)
  have hvalue := value_eq_of_latest_eq hpos hlen hlatest
  constructor
  · rw [hlatest] at hfinite hcount
    rw [hlatest, averageRange, hcount, ← trueRanges_eq hfinite]
    exact hvalue
  · intro others hothers hsame
    exact (value_eq_of_latest_eq hpos hothers (hsame.trans hlatest)).trans hvalue.symm

/-- The gap to the close before is wider than the candle's own range. -/
theorem value_eq_averageRange_gap :
    let candles : List Candle := [.ofPrices 0 7.0 9.0 5.0 6.0 0.0, .ofPrices 1 100.0 105.0 95.0 100.0 0.0,
      .ofPrices 2 120.0 122.0 118.0 120.0 0.0]
    0 < 2 ∧ 2 ≤ candles.length ∧
      (∀ c ∈ latest 2 candles, c.high.isFinite = true ∧ c.low.isFinite = true) ∧
      (candles.foldl update (fresh 2)).value = averageRange candles.tail ∧
      averageRange candles.tail = 16.0 := by
  intro candles
  have hpos : 0 < 2 := by decide
  have hlen : 2 ≤ candles.length := by decide
  have hfinite : ∀ c ∈ latest 2 candles, c.high.isFinite = true ∧ c.low.isFinite = true := by
    decide +kernel
  exact ⟨hpos, hlen, hfinite, (value_eq_averageRange hpos hlen hfinite).1, by decide +kernel⟩

end Atr

end SignalEngine
