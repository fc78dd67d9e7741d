import SignalEngine.Indicator.Rsi
import SignalEngine.Proofs.Indicator.RunningSum
import SignalEngine.Proofs.Number.Order

namespace SignalEngine

namespace Sma

/-- The ring still has every number that it has been given, behind the zeros that it began with. -/
def KeepsAll (s : Sma) (xs : List Float) : Prop :=
  s.closes.readFrom s.age = List.replicate (s.period - xs.length) 0.0 ++ xs

theorem keepsAll_foldl {period : Nat} (hpos : 0 < period) {candles : List Candle}
    (h : candles.length ≤ period) :
    (candles.foldl update (fresh period)).KeepsAll (candles.map Candle.close) := by
  have hremembers := remembers_foldl hpos candles
  have hread := hremembers.closes.read
  rw [List.length_map, ← hremembers.age, rolling_of_ge (by rwa [List.length_map])] at hread
  rw [KeepsAll, hremembers.span, hread]

end Sma

namespace Smma

/-- The mean of the first numbers, as many as the period, and after that the old average with the
weight of all of these but one. -/
def averageOf (period : Nat) (xs : List Float) : Float :=
  (xs.drop period).foldl
    (fun average x => (average * Float.ofNat (period - 1) + x) / Float.ofNat period)
    ((xs.take period).foldl (· + ·) 0.0 / Float.ofNat period)

section Average

variable {period : Nat} {xs : List Float}

theorem averageOf_of_le (h : xs.length ≤ period) :
    averageOf period xs = xs.foldl (· + ·) 0.0 / Float.ofNat period := by
  rw [averageOf, List.drop_of_length_le h, List.take_of_length_le h, List.foldl_nil]

theorem averageOf_concat (h : period ≤ xs.length) (x : Float) :
    averageOf period (xs ++ [x]) =
      (averageOf period xs * Float.ofNat (period - 1) + x) / Float.ofNat period := by
  rw [averageOf, List.drop_append_of_le_length h, List.take_append_of_le_length h,
    List.foldl_append]
  rfl

end Average

structure Follows (s : Smma) (period : Nat) (candles : List Candle) : Prop where
  span : s.period = period
  age : s.age = candles.length
  sma : s.sma = (candles.take period).foldl Sma.update (.fresh period)
  value : candles ≠ [] → s.value = averageOf period (candles.map Candle.close)

namespace Follows

variable {s : Smma} {period : Nat} {candles : List Candle}

theorem fresh (period : Nat) : (Smma.fresh period).Follows period [] where
  span := rfl
  age := rfl
  sma := by rw [List.take_nil]; rfl
  value := fun hne => absurd rfl hne

theorem update_first (h : s.Follows period candles) (hpos : 0 < period)
    (hlt : candles.length < period) (c : Candle) : (s.update c).Follows period (candles ++ [c]) := by
  have hstep : s.update c =
      { s with age := s.age + 1, sma := s.sma.update c, value := (s.sma.update c).value } := by
    apply if_pos
    rw [h.span, h.age]
    exact hlt
  have hlength : (candles ++ [c]).length ≤ period := by
    rw [List.length_append, List.length_singleton]
    exact hlt
  -- so far the simple average has seen all of the candles
  have hsma : s.sma.update c = (candles ++ [c]).foldl Sma.update (.fresh period) := by
    rw [h.sma, List.take_of_length_le hlt.le, List.foldl_append, List.foldl_cons, List.foldl_nil]
  rw [hstep]
  constructor
  case span => exact h.span
  case age => rw [List.length_append, List.length_singleton, ← h.age]
  case sma => rw [hsma, List.take_of_length_le hlength]
  case value =>
    intro hne
    rw [averageOf_of_le (by rwa [List.length_map]), ← Sma.sum_foldl_of_le hpos hlength,
      ← Sma.value_foldl hpos hne, ← hsma]

theorem update_later (h : s.Follows period candles) (hpos : 0 < period)
    (hle : period ≤ candles.length) (c : Candle) : (s.update c).Follows period (candles ++ [c]) := by
  have hstep : s.update c =
      { s with
        age := s.age + 1
        ready := true
        value := (s.value * Float.ofNat (s.period - 1) + c.close) / Float.ofNat s.period } := by
    apply if_neg
    rw [h.span, h.age]
    omega
  rw [hstep]
  constructor
  case span => exact h.span
  case age => rw [List.length_append, List.length_singleton, ← h.age]
  case sma => rw [List.take_append_of_le_length hle, ← h.sma]
  case value =>
    intro _
    have hne : candles ≠ [] := List.length_pos_iff.1 (hpos.trans_le hle)
    rw [List.map_append, List.map_singleton, averageOf_concat (by rwa [List.length_map]),
      ← h.value hne, ← h.span]

theorem update (h : s.Follows period candles) (hpos : 0 < period) (c : Candle) :
    (s.update c).Follows period (candles ++ [c]) := by
  rcases Nat.lt_or_ge candles.length period with hlt | hle
  · exact h.update_first hpos hlt c
  · exact h.update_later hpos hle c

end Follows

theorem follows_foldl {period : Nat} (hpos : 0 < period) (candles : List Candle) :
    (candles.foldl update (fresh period)).Follows period candles := by
  apply foldl_history (Follows · period ·) (.fresh period)
  intro s candles hs c
  exact hs.update hpos c

/-- The average of a series of numbers. -/
def ofSeries (period : Nat) (xs : List Float) : Smma :=
  (xs.map Candle.ofClose).foldl update (fresh period)

section OfSeries

variable {period : Nat}

theorem ofSeries_concat (period : Nat) (xs : List Float) (x : Float) :
    ofSeries period (xs ++ [x]) = (ofSeries period xs).update (Candle.ofClose x) := by
  rw [ofSeries, List.map_append, List.foldl_append]
  rfl

theorem map_close_map_ofClose (xs : List Float) : (xs.map Candle.ofClose).map Candle.close = xs := by
  rw [List.map_map]
  exact List.map_id xs

theorem value_ofSeries (hpos : 0 < period) {xs : List Float} (h : xs ≠ []) :
    (ofSeries period xs).value = averageOf period xs := by
  rw [ofSeries, (follows_foldl hpos _).value (by rwa [ne_eq, List.map_eq_nil_iff]),
    map_close_map_ofClose]

theorem keepsAll_ofSeries (hpos : 0 < period) (xs : List Float) :
    (ofSeries period xs).sma.KeepsAll (xs.take period) := by
  have hkeeps := Sma.keepsAll_foldl hpos (List.length_take_le period (xs.map Candle.ofClose))
  rw [List.map_take, map_close_map_ofClose] at hkeeps
  rw [ofSeries, (follows_foldl hpos _).sma]
  exact hkeeps

end OfSeries

end Smma

namespace Rsi

def rise (last price : Float) : Float :=
  if last < price then price - last else 0.0

def fall (last price : Float) : Float :=
  if price < last then last - price else 0.0

theorem moves_eq (last price : Float) : moves last price = (rise last price, fall last price) := by
  rw [moves, rise, fall]
  split
  · rw [if_neg (Number.not_lt_of_lt ‹_›)]
  · split
    · rfl
    · rfl

theorem rise_eq_zero_or (last price : Float) : rise last price = 0.0 ∨ fall last price = 0.0 := by
  rw [rise, fall]
  by_cases h : last < price
  · exact .inr (if_neg (Number.not_lt_of_lt h))
  · exact .inl (if_neg h)

/-- The index of the averages of all moves so far. The first close makes no move. -/
def indexAfter (period : Nat) (closes : List Float) : Float :=
  let up := Smma.averageOf period (neighbours rise closes)
  let down := Smma.averageOf period (neighbours fall closes)
  if closes.length ≤ 1 then 0.0
  else if down == 0.0 then if up == 0.0 then 0.0 else 100.0
  else 100.0 - 100.0 / (1.0 + up / down)

theorem strength_eq (up down : Float) :
    strength up down = if down == 0.0 then if up == 0.0 then 0.0 else 100.0
      else 100.0 - 100.0 / (1.0 + up / down) := by
  rw [strength, bne]
  cases up == 0.0 with
  | false => rfl
  | true => rfl

structure Follows (s : Rsi) (period : Nat) (closes : List Float) : Prop where
  lastPrice : s.lastPrice = closes.getLast?
  up : s.up = .ofSeries period (neighbours rise closes)
  down : s.down = .ofSeries period (neighbours fall closes)
  value : s.value = indexAfter period closes

namespace Follows

variable {s : Rsi} {period : Nat} {closes : List Float}

theorem fresh (period : Nat) : (Rsi.fresh period).Follows period [] :=
  ⟨rfl, rfl, rfl, rfl⟩

theorem seed (h : s.Follows period []) (c : Candle) : (s.update c).Follows period [c.close] := by
  have hstep : s.update c = { s with lastPrice := some c.close } := by
    rw [update, h.lastPrice]
    rfl
  rw [hstep]
  exact ⟨rfl, h.up, h.down, h.value⟩

theorem move {last : Float} (h : s.Follows period (closes ++ [last])) (hpos : 0 < period)
    (c : Candle) : (s.update c).Follows period (closes ++ [last] ++ [c.close]) := by
  have hup : s.up.update (.ofClose (rise last c.close)) =
      .ofSeries period (neighbours rise (closes ++ [last] ++ [c.close])) := by
    rw [neighbours_concat, Smma.ofSeries_concat, h.up]
  have hdown : s.down.update (.ofClose (fall last c.close)) =
      .ofSeries period (neighbours fall (closes ++ [last] ++ [c.close])) := by
    rw [neighbours_concat, Smma.ofSeries_concat, h.down]
  have hne (f : Float → Float → Float) : neighbours f (closes ++ [last] ++ [c.close]) ≠ [] := by
    rw [neighbours_concat]
    exact List.append_ne_nil_of_right_ne_nil _ (List.cons_ne_nil _ _)
  rw [update, h.lastPrice, List.getLast?_concat]
  dsimp only
  rw [moves_eq]
  dsimp only
  rw [hup, hdown]
  constructor
  case lastPrice => rw [List.getLast?_concat]
  case up => rfl
  case down => rfl
  case value =>
    have hlength : ¬ (closes ++ [last] ++ [c.close]).length ≤ 1 := by
      simp only [List.length_append, List.length_singleton]
      omega
    dsimp only
    rw [Smma.value_ofSeries hpos (hne rise), Smma.value_ofSeries hpos (hne fall), strength_eq, indexAfter]
    exact (if_neg hlength).symm

theorem update (h : s.Follows period closes) (hpos : 0 < period) (c : Candle) :
    (s.update c).Follows period (closes ++ [c.close]) := by
  rcases List.eq_nil_or_concat closes with rfl | ⟨before, last, rfl⟩
  · exact h.seed c
  · rw [List.concat_eq_append] at h ⊢
    exact h.move hpos c

end Follows

theorem follows_foldl {period : Nat} (hpos : 0 < period) (candles : List Candle) :
    (candles.foldl update (fresh period)).Follows period (candles.map Candle.close) := by
  apply foldl_history (fun s candles => Follows s period (candles.map Candle.close))
    (.fresh period)
  intro s candles hs c
  rw [List.map_append]
  exact hs.update hpos c

/-- After every tick the index is that of the recurrence, whatever the closes. Each close after the
first moves up or down but not both ways, and neither of the two rings ever drops a move that it has
been given. -/
theorem value_eq_indexAfter {period : Nat} (hpos : 0 < period) (candles : List Candle) :
    let closes := candles.map Candle.close
    let s := candles.foldl update (fresh period)
    s.value = indexAfter period closes ∧
      (∀ last price, rise last price = 0.0 ∨ fall last price = 0.0) ∧
      s.up.sma.KeepsAll ((neighbours rise closes).take period) ∧
      s.down.sma.KeepsAll ((neighbours fall closes).take period) := by
  intro closes s
  have hfollows : s.Follows period closes := follows_foldl hpos candles
  refine ⟨hfollows.value, rise_eq_zero_or, ?_, ?_⟩
  · rw [hfollows.up]
    exact Smma.keepsAll_ofSeries hpos _
  · rw [hfollows.down]
    exact Smma.keepsAll_ofSeries hpos _

/-- Two moves up and one down, the last of them after the averages have changed over. -/
theorem value_eq_indexAfter_rising :
    let closes := [1.0, 2.0, 1.0, 2.0]
    0 < 2 ∧ ((closes.map Candle.ofClose).foldl update (fresh 2)).value = indexAfter 2 closes ∧
      indexAfter 2 closes = 75.0 := by
  intro closes
  have hpos : 0 < 2 := by decide
  have htold := value_eq_indexAfter hpos (closes.map Candle.ofClose)
  rw [Smma.map_close_map_ofClose] at htold
  exact ⟨hpos, htold.1, by decide +kernel⟩

end Rsi

end SignalEngine
