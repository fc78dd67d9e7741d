import SignalEngine.Proofs.Checkpoint.Divergence
import SignalEngine.Proofs.Session.History
import SignalEngine.Proofs.Window.Extremes
import SignalEngine.Strategy.Basic

/-!
The divergence strategy, told by the candles that it has seen. The strategy compares with the extremes
of three rings, keeps eight extremes of its own and tests four divergences. The definition here compares
a candle with all candles of its window, and knows one value for each kind of extreme and two tests: the
last and the previous extreme are always equal, and of the divergences of a low one is always there,
unless the oscillator is no number.
-/

namespace SignalEngine.Aldo

/-- The values that an oscillator takes on, one after each candle. -/
def Oscillator.readings (o : Oscillator) : List Candle → List Float
  | [] => []
  | c :: rest => (o.update c).value :: (o.update c).readings rest

namespace Config

def opened (config : Config) : Strategy :=
  .aldo (.fresh config)

/-- The oscillator after all candles so far. -/
def oscillatorAfter (config : Config) (candles : List Candle) : Oscillator :=
  candles.foldl Oscillator.update (.fresh config)

/-- The latest values of the oscillator, as many as the window is long. -/
def latestReadings (config : Config) (candles : List Candle) : List Float :=
  latest config.period ((Oscillator.fresh config).readings candles)

end Config

/-- The extremes that a candle sets after the candles before it. The oscillator sets one only when it is
a number, and is compared only with numbers. -/
def flagsAfter (config : Config) (before : List Candle) (c : Candle) : Flags :=
  let candles := before ++ [c]
  let osc := (config.oscillatorAfter candles).value
  { priceHigh := decide (∀ x ∈ latest config.period candles, x.high ≤ c.high)
    priceLow := decide (∀ x ∈ latest config.period candles, c.low ≤ x.low)
    oscHigh := decide (osc.isNaN = false ∧
      ∀ x ∈ config.latestReadings candles, x.isNaN = false → x ≤ osc)
    oscLow := decide (osc.isNaN = false ∧
      ∀ x ∈ config.latestReadings candles, x.isNaN = false → osc ≤ x) }

/-- The candles one by one, each with those before it. -/
def ticksFrom (before : List Candle) : List Candle → List (List Candle × Candle)
  | [] => []
  | c :: rest => (before, c) :: ticksFrom (before ++ [c]) rest

/-- The value at the latest candle that set an extreme, zero if none did. None does before the window
is full. -/
def lastSet (config : Config) (flag : Flags → Bool) (value : List Candle → Candle → Float)
    (candles : List Candle) : Float :=
  (((ticksFrom [] candles).filter fun (before, c) =>
    decide (config.period ≤ before.length + 1) && flag (flagsAfter config before c)).getLast?.map
      fun (before, c) => value before c).getD 0.0

/-- Extremes of which the last and the previous one are equal. -/
def Extrema.paired (priceHigh priceLow oscHigh oscLow : Float) : Extrema :=
  ⟨priceHigh, priceHigh, priceLow, priceLow, oscHigh, oscHigh, oscLow, oscLow⟩

/-- The extremes after all candles so far. -/
def extremaAfter (config : Config) (candles : List Candle) : Extrema :=
  let reading := fun before c => (config.oscillatorAfter (before ++ [c])).value
  .paired (lastSet config Flags.priceHigh (fun _ c => c.high) candles)
    (lastSet config Flags.priceLow (fun _ c => c.low) candles)
    (lastSet config Flags.oscHigh reading candles) (lastSet config Flags.oscLow reading candles)

/-- The signal of a candle after the candles before it. -/
def signalAfter (config : Config) (before : List Candle) (c : Candle) : Option Signal :=
  let flags := flagsAfter config before c
  let osc := (config.oscillatorAfter (before ++ [c])).value
  if before.length + 1 < config.period then none
  else if flags.priceHigh && osc ≤ (extremaAfter config (before ++ [c])).prevOscHigh then
    some (.sure .openShort)
  else if flags.priceLow && !osc.isNaN then some (.sure .openLong)
  else none

theorem Oscillator.readings_concat (o : Oscillator) (candles : List Candle) (c : Candle) :
    o.readings (candles ++ [c]) = o.readings candles ++ [((candles ++ [c]).foldl update o).value] := by
  induction candles generalizing o with
  | nil => rfl
  | cons x rest ih => exact congrArg _ (ih (o.update x))

theorem Oscillator.length_readings (o : Oscillator) (candles : List Candle) :
    (o.readings candles).length = candles.length := by
  induction candles generalizing o with
  | nil => rfl
  | cons x rest ih => exact congrArg _ (ih (o.update x))

theorem Config.oscillatorAfter_concat (config : Config) (candles : List Candle) (c : Candle) :
    config.oscillatorAfter (candles ++ [c]) = (config.oscillatorAfter candles).update c := by
  rw [oscillatorAfter, List.foldl_append]
  rfl

theorem ticksFrom_concat (before candles : List Candle) (c : Candle) :
    ticksFrom before (candles ++ [c]) = ticksFrom before candles ++ [(before ++ candles, c)] := by
  induction candles generalizing before with
  | nil => rw [List.append_nil]; rfl
  | cons x rest ih =>
      rw [List.cons_append, ticksFrom, ih, ticksFrom, List.cons_append, List.append_assoc,
        List.singleton_append]

section Last

variable (config : Config) (flag : Flags → Bool) (value : List Candle → Candle → Float)
  (candles : List Candle) (c : Candle)

theorem lastSet_concat :
    lastSet config flag value (candles ++ [c]) =
      if config.period ≤ candles.length + 1 ∧ flag (flagsAfter config candles c) = true then
        value candles c
      else lastSet config flag value candles := by
  have hset : (decide (config.period ≤ candles.length + 1) &&
      flag (flagsAfter config candles c)) = true ↔
    config.period ≤ candles.length + 1 ∧ flag (flagsAfter config candles c) = true := by
    rw [Bool.and_eq_true, decide_eq_true_iff]
  rw [lastSet, ticksFrom_concat, List.filter_append, List.nil_append, List.filter_singleton,
    cond_eq_ite]
  simp only [hset]
  split
  · rw [List.getLast?_concat, Option.map_some, Option.getD_some]
  · rw [List.append_nil, lastSet]

variable {config flag value}

theorem isNaN_lastSet (h : ∀ before x, flag (flagsAfter config before x) = true →
    (value before x).isNaN = false) : (lastSet config flag value candles).isNaN = false := by
  induction candles using List.reverseRecOn with
  | nil => exact (by decide : (0.0 : Float).isNaN = false)
  | append_singleton candles c ih =>
      rw [lastSet_concat]
      split
      · rename_i hset
        exact h candles c hset.2
      · exact ih

end Last

/-- The prices that extremes are taken of are numbers. -/
def Ranged (c : Candle) : Prop :=
  c.high.isNaN = false ∧ c.low.isNaN = false

/-- The windows and the oscillator are those of a strategy that has seen these candles. -/
structure State.Observes (s : State) (config : Config) (candles : List Candle) : Prop where
  settings : s.config = config
  age : s.age = candles.length
  oscillator : s.oscillator = config.oscillatorAfter candles
  capacity : s.highs.capacity = config.period ∧ s.lows.capacity = config.period ∧
    s.oscs.capacity = config.period
  highs : s.highs.Holds (candles.map Candle.high)
  lows : s.lows.Holds (candles.map Candle.low)
  oscs : s.oscs.Holds ((Oscillator.fresh config).readings candles)

structure State.Follows (s : State) (config : Config) (candles : List Candle) : Prop
    extends s.Observes config candles where
  extrema : s.extrema = extremaAfter config candles

theorem State.Follows.fresh (config : Config) : (State.fresh config).Follows config [] where
  settings := rfl
  age := rfl
  oscillator := rfl
  capacity := ⟨Window.capacity_blank _, Window.capacity_blank _, Window.capacity_blank _⟩
  highs := Window.holds_nil _
  lows := Window.holds_nil _
  oscs := Window.holds_nil _
  extrema := rfl

section Windows

variable {w : Window} {xs : List Float} {period : Nat}

theorem holds_set (h : w.Holds xs) (hpos : 0 < period) (hcapacity : w.capacity = period) {age : Nat}
    (hage : age = xs.length) (x : Float) : (w.set age x).Holds (xs ++ [x]) := by
  subst hage hcapacity
  exact h.set hpos x

/-- A test against the extreme of a ring is a test of a number against all numbers of the window. -/
theorem max_le_iff (h : w.Holds xs) (hcapacity : w.capacity = period) (hfull : period ≤ xs.length)
    (z : Float) :
    w.max ≤ z ↔ z.isNaN = false ∧ ∀ x ∈ latest period xs, x.isNaN = false → x ≤ z := by
  subst hcapacity
  cases hz : z.isNaN with
  | true => exact iff_of_false (Number.not_le_of_isNaN (.inr hz)) fun h => Bool.noConfusion h.1
  | false => rw [h.max_le_iff hfull hz, and_iff_right rfl]

theorem le_min_iff (h : w.Holds xs) (hcapacity : w.capacity = period) (hfull : period ≤ xs.length)
    (z : Float) :
    z ≤ w.min ↔ z.isNaN = false ∧ ∀ x ∈ latest period xs, x.isNaN = false → z ≤ x := by
  subst hcapacity
  cases hz : z.isNaN with
  | true => exact iff_of_false (Number.not_le_of_isNaN (.inl hz)) fun h => Bool.noConfusion h.1
  | false => rw [h.le_min_iff hfull hz, and_iff_right rfl]

theorem forall_mem_latest_iff {price : Candle → Float} {candles : List Candle} {c : Candle}
    (hnumbers : ∀ x ∈ candles, (price x).isNaN = false) (hc : (price c).isNaN = false)
    (R : Float → Prop) :
    ((price c).isNaN = false ∧
        ∀ x ∈ latest period (candles.map price), x.isNaN = false → R x) ↔
      ∀ x ∈ latest period candles, R (price x) := by
  rw [and_iff_right hc, latest, List.length_map, ← List.map_drop, List.forall_mem_map]
  constructor
  · intro h x hx
    exact h x hx (hnumbers x (List.mem_of_mem_drop hx))
  · intro h x hx _
    exact h x hx

end Windows

namespace State.Observes

variable {s : State} {config : Config} {candles : List Candle}

theorem observe (h : s.Observes config candles) (hconfig : config.validate = .ok ()) (c : Candle) :
    (s.observe c).Observes config (candles ++ [c]) := by
  have hpos := Config.period_pos hconfig
  obtain ⟨hcapHighs, hcapLows, hcapOscs⟩ := h.capacity
  have hosc : s.oscillator.update c = config.oscillatorAfter (candles ++ [c]) := by
    rw [config.oscillatorAfter_concat, h.oscillator]
  have hage (price : Candle → Float) : s.age = (candles.map price).length := by
    rw [List.length_map, h.age]
  have hage' : s.age = ((Oscillator.fresh config).readings candles).length := by
    rw [Oscillator.length_readings, h.age]
  refine ⟨h.settings, ?_, hosc, ?_, ?_, ?_, ?_⟩
  · rw [List.length_append, ← h.age]
    rfl
  · exact ⟨(Window.capacity_set _ _ _).trans hcapHighs, (Window.capacity_set _ _ _).trans hcapLows,
      (Window.capacity_set _ _ _).trans hcapOscs⟩
  · rw [List.map_append]
    exact holds_set h.highs hpos hcapHighs (hage _) c.high
  · rw [List.map_append]
    exact holds_set h.lows hpos hcapLows (hage _) c.low
  · have hreading : ((candles ++ [c]).foldl Oscillator.update (.fresh config)).value =
      (s.oscillator.update c).value := by
      rw [hosc]
      rfl
    rw [Oscillator.readings_concat, hreading]
    exact holds_set h.oscs hpos hcapOscs hage' _

variable {c : Candle}

theorem flags_eq (h : s.Observes config (candles ++ [c]))
    (hranged : ∀ x ∈ candles ++ [c], Ranged x) (hfull : config.period ≤ candles.length + 1) :
    s.flags c s.oscillator.value = flagsAfter config candles c := by
  obtain ⟨hcapHighs, hcapLows, hcapOscs⟩ := h.capacity
  have hlength : config.period ≤ (candles ++ [c]).length := by rwa [List.length_append]
  have hprices (price : Candle → Float) :
    config.period ≤ ((candles ++ [c]).map price).length := by rwa [List.length_map]
  have hreadings : config.period ≤ ((Oscillator.fresh config).readings (candles ++ [c])).length := by
    rwa [Oscillator.length_readings]
  have hlast : c ∈ candles ++ [c] := by simp
  rw [State.flags, flagsAfter, Flags.mk.injEq]
  simp only [decide_eq_decide]
  refine ⟨?_, ?_, ?_, ?_⟩
  · rw [max_le_iff h.highs hcapHighs (hprices _)]
    exact forall_mem_latest_iff (fun x hx => (hranged x hx).1) (hranged c hlast).1 (· ≤ c.high)
  · rw [le_min_iff h.lows hcapLows (hprices _)]
    exact forall_mem_latest_iff (fun x hx => (hranged x hx).2) (hranged c hlast).2 (c.low ≤ ·)
  · rw [max_le_iff h.oscs hcapOscs hreadings, h.oscillator]
    rfl
  · rw [le_min_iff h.oscs hcapOscs hreadings, h.oscillator]
    rfl

end State.Observes

section Extremes

variable {config : Config} {before : List Candle} {c : Candle}

theorem Extrema.next_paired (priceHigh priceLow oscHigh oscLow : Float) (flags : Flags) (c : Candle)
    (osc : Float) :
    (paired priceHigh priceLow oscHigh oscLow).next flags c osc =
      paired (if flags.priceHigh then c.high else priceHigh)
        (if flags.priceLow then c.low else priceLow) (if flags.oscHigh then osc else oscHigh)
        (if flags.oscLow then osc else oscLow) := by
  obtain ⟨setsPriceHigh, setsPriceLow, setsOscHigh, setsOscLow⟩ := flags
  cases setsPriceHigh <;> cases setsPriceLow <;> cases setsOscHigh <;> cases setsOscLow <;> rfl

theorem extremaAfter_concat (hfull : config.period ≤ before.length + 1) :
    extremaAfter config (before ++ [c]) =
      (extremaAfter config before).next (flagsAfter config before c) c
        (config.oscillatorAfter (before ++ [c])).value := by
  simp only [extremaAfter, Extrema.next_paired, lastSet_concat, hfull, true_and]

theorem extremaAfter_concat_of_lt (hshort : before.length + 1 < config.period) :
    extremaAfter config (before ++ [c]) = extremaAfter config before := by
  simp only [extremaAfter, lastSet_concat, Nat.not_le.2 hshort, false_and, if_false]

theorem isNaN_prevOscLow (config : Config) (candles : List Candle) :
    (extremaAfter config candles).prevOscLow.isNaN = false := by
  apply isNaN_lastSet
  intro before x hset
  exact (of_decide_eq_true hset).1

theorem le_or_le_eq {x y : Float} (hx : x.isNaN = false) :
    (decide (x ≤ y) || decide (y ≤ x)) = !y.isNaN := by
  cases hy : y.isNaN with
  | true =>
      rw [decide_eq_false (Number.not_le_of_isNaN (.inr hy)),
        decide_eq_false (Number.not_le_of_isNaN (.inl hy))]
      rfl
  | false =>
      rw [Bool.or_eq_true_iff.2]
      · rfl
      · rw [decide_eq_true_iff, decide_eq_true_iff, Number.le_iff_place hx hy,
          Number.le_iff_place hy hx]
        exact le_total _ _

/-- Where the previous extremes are those that the candle has just set, the four divergences come down
to two tests. -/
theorem Extrema.signal?_eq {e : Extrema} {flags : Flags} {osc : Float} (hranged : Ranged c)
    (hhigh : flags.priceHigh = true → e.prevPriceHigh = c.high)
    (hlow : flags.priceLow = true → e.prevPriceLow = c.low)
    (hosc : e.prevOscLow.isNaN = false) :
    e.signal? flags c osc =
      if flags.priceHigh && osc ≤ e.prevOscHigh then some (.sure .openShort)
      else if flags.priceLow && !osc.isNaN then some (.sure .openLong)
      else none := by
  have hself {x : Float} (hx : x.isNaN = false) : decide (x ≤ x) = true :=
    decide_eq_true (Number.le_self hx)
  rw [signal?]
  have hbearish : (flags.priceHigh && e.prevPriceHigh ≤ c.high && osc ≤ e.prevOscHigh ||
      flags.priceHigh && c.high ≤ e.prevPriceHigh && osc ≤ e.prevOscHigh) =
    (flags.priceHigh && osc ≤ e.prevOscHigh) := by
    cases hflag : flags.priceHigh with
    | false => rfl
    | true => rw [hhigh hflag, hself hranged.1, Bool.true_and, Bool.true_and, Bool.or_self]
  have hbullish : (flags.priceLow && c.low ≤ e.prevPriceLow && e.prevOscLow ≤ osc ||
      flags.priceLow && e.prevPriceLow ≤ c.low && osc ≤ e.prevOscLow) =
    (flags.priceLow && !osc.isNaN) := by
    cases hflag : flags.priceLow with
    | false => rfl
    | true =>
        rw [hlow hflag, hself hranged.2, ← le_or_le_eq hosc]
        simp only [Bool.true_and]
  simp only [hbearish, hbullish]

end Extremes

namespace State.Follows

variable {s : State} {config : Config} {candles : List Candle} {c : Candle}

section

variable (h : s.Follows config candles) (hconfig : config.validate = .ok ())
  (hranged : ∀ x ∈ candles ++ [c], Ranged x)

include h hconfig hranged

theorem update_eq :
    (s.update c).1.Follows config (candles ++ [c]) ∧
      (s.update c).2 = signalAfter config candles c := by
  have hobserve := h.observe hconfig c
  have hage : (s.observe c).age = candles.length + 1 := by
    rw [hobserve.age, List.length_append, List.length_singleton]
  have hextrema : (s.observe c).extrema = extremaAfter config candles := h.extrema
  have hwarm : (s.observe c).age < (s.observe c).config.period ↔
    candles.length + 1 < config.period := by rw [hage, hobserve.settings]
  rw [State.update, signalAfter]
  dsimp only
  by_cases hshort : candles.length + 1 < config.period
  · rw [if_pos (hwarm.2 hshort), if_pos hshort]
    exact ⟨⟨hobserve, hextrema.trans (extremaAfter_concat_of_lt hshort).symm⟩, rfl⟩
  · rw [if_neg (mt hwarm.1 hshort), if_neg hshort]
    have hfull := Nat.not_lt.1 hshort
    have hflags := hobserve.flags_eq hranged hfull
    rw [hextrema, hflags, hobserve.oscillator, ← extremaAfter_concat hfull]
    refine ⟨⟨{ hobserve with oscillator := rfl }, rfl⟩, ?_⟩
    apply Extrema.signal?_eq (hranged c (by simp)) _ _ (isNaN_prevOscLow config _)
    · intro hset
      change lastSet config Flags.priceHigh (fun _ c => c.high) (candles ++ [c]) = c.high
      rw [lastSet_concat, if_pos ⟨hfull, hset⟩]
    · intro hset
      change lastSet config Flags.priceLow (fun _ c => c.low) (candles ++ [c]) = c.low
      rw [lastSet_concat, if_pos ⟨hfull, hset⟩]

end

end State.Follows

theorem exists_follows {config : Config} (hconfig : config.validate = .ok ()) (history : List Feed) :
    ∃ s : State, Strategic.after config.opened history = .aldo s ∧
      ((∀ f ∈ history, Ranged f.candle) → s.Follows config (history.map Feed.candle)) := by
  apply Strategic.exists_after Strategy.aldo
    (fun s history => (∀ f ∈ history, Ranged f.candle) → s.Follows config (history.map Feed.candle))
    (fun _ => .fresh config)
  intro s history hfollows f
  refine ⟨(s.update f.candle).1, ?_, ?_⟩
  · cases f with
    | past c => rfl
    | present c => rfl
  · intro hranged
    rw [List.map_append, List.map_singleton]
    have hpast := hfollows fun f' hf' => hranged f' (List.mem_append_left _ hf')
    refine (hpast.update_eq hconfig ?_).1
    rw [← List.map_singleton, ← List.map_append, List.forall_mem_map]
    exact hranged

/-- After every history of candles whose highs and lows are numbers, with one more candle of either
kind: the oscillator has seen all candles, the flags are those that the window of candles and readings
gives, the last and the previous extremes are what the latest candles with these flags have left, and
the answer is the one defined by the history. -/
theorem update_eq_history {config : Config} (hconfig : config.validate = .ok ())
    (history : List Feed) (f : Feed) (hranged : ∀ x ∈ history ++ [f], Ranged x.candle) :
    ∃ s t : State, Strategic.after config.opened history = .aldo s ∧
      Strategic.after config.opened (history ++ [f]) = .aldo t ∧
      t.oscillator = config.oscillatorAfter ((history ++ [f]).map Feed.candle) ∧
      (config.period ≤ history.length + 1 → t.flags f.candle t.oscillator.value =
        flagsAfter config (history.map Feed.candle) f.candle) ∧
      t.extrema = extremaAfter config ((history ++ [f]).map Feed.candle) ∧
      (s.update f.candle).2 = signalAfter config (history.map Feed.candle) f.candle := by
  obtain ⟨s, hs, hfollows⟩ := exists_follows hconfig history
  obtain ⟨t, ht, hfollows'⟩ := exists_follows hconfig (history ++ [f])
  have hpast := hfollows fun x hx => hranged x (List.mem_append_left _ hx)
  have hnext := hfollows' hranged
  have hcandles : ∀ x ∈ history.map Feed.candle ++ [f.candle], Ranged x := by
    rw [← List.map_singleton, ← List.map_append, List.forall_mem_map]
    exact hranged
  refine ⟨s, t, hs, ht, hnext.oscillator, ?_, hnext.extrema, (hpast.update_eq hconfig hcandles).2⟩
  intro hfull
  have hobserves := hnext.toObserves
  rw [List.map_append, List.map_singleton] at hobserves
  exact hobserves.flags_eq hcandles (by rwa [List.length_map])

/-- The price falls to the low of its window, and the strength of the price falls with it. -/
theorem update_eq_history_falling :
    let config : Config := { Config.standard with period := 2, oscillatorType := 1, rsiLength := 1 }
    let history : List Feed :=
      [.past (.ofPrices 0 3.0 4.0 2.0 3.0 0.0), .present (.ofPrices 1 3.0 5.0 3.0 4.0 0.0)]
    let c : Candle := .ofPrices 2 3.0 4.0 1.0 2.0 0.0
    config.validate = .ok () ∧ (∀ x ∈ history ++ [.present c], Ranged x.candle) ∧
      ∃ s t : State, Strategic.after config.opened history = .aldo s ∧
        Strategic.after config.opened (history ++ [.present c]) = .aldo t ∧
        t.flags c t.oscillator.value = ⟨false, true, false, true⟩ ∧
        t.extrema.prevPriceHigh = 5.0 ∧ t.extrema.prevPriceLow = 1.0 ∧
        (s.update c).2.map Signal.kind = some .openLong := by
  intro config history c
  have hconfig : config.validate = .ok () := rfl
  have hranged : ∀ x ∈ history ++ [.present c], Ranged x.candle := by
    unfold Ranged
    decide +kernel
  obtain ⟨s, t, hs, ht, -, hflags, hextrema, hsignal⟩ :=
    update_eq_history hconfig history (.present c) hranged
  have hflags' : flagsAfter config (history.map Feed.candle) c = ⟨false, true, false, true⟩ := by
    decide +kernel
  refine ⟨hconfig, hranged, s, t, hs, ht, (hflags (by decide)).trans hflags', ?_, ?_, ?_⟩
  · rw [hextrema]
    decide +kernel
  · rw [hextrema]
    decide +kernel
  · refine (congrArg (Option.map Signal.kind) hsignal).trans ?_
    decide +kernel

end SignalEngine.Aldo
