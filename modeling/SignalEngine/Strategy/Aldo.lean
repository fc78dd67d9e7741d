import SignalEngine.Indicator.Cci
import SignalEngine.Indicator.Macd
import SignalEngine.Indicator.Rsi
import SignalEngine.Market.Probe
import SignalEngine.Market.Signal
import SignalEngine.Strategy.Error

namespace SignalEngine.Aldo

open Json (Codec Fields)

inductive OscillatorKind where
  | cci
  | rsi
  | macd
  deriving DecidableEq, Repr

def OscillatorKind.label : OscillatorKind → String
  | cci => "CCI"
  | rsi => "RSI"
  | macd => "MACD"

/-- The indicator of a code: 0 and 1 have their own, and all other codes share one. -/
def OscillatorKind.ofCode (code : Int) : OscillatorKind :=
  if code = 0 then cci else if code = 1 then rsi else macd

/-- The settings. Only the period, the oscillator and its lengths are used; the others are accepted and
kept. -/
structure Config where
  trailingStopLoss : Float
  exitBars : Nat
  rsiLength : Nat
  macdFast : Nat
  macdSlow : Nat
  macdSignal : Nat
  stochLength : Nat
  stochSmoothK : Nat
  stochSmoothD : Nat
  cciLength : Nat
  period : Nat
  overbought : Float
  oversold : Float
  oscillatorType : Int
  deriving Repr

namespace Config

def standard : Config :=
  ⟨3.5, 7, 14, 12, 26, 9, 14, 3, 3, 20, 5, 70.0, 30.0, 0⟩

def fields :=
  Fields.defaulted "trailingStopLoss" .real standard.trailingStopLoss <|
  .defaulted "exitBars" .count standard.exitBars <|
  .defaulted "rsiLength" .count standard.rsiLength <|
  .defaulted "macdFast" .count standard.macdFast <|
  .defaulted "macdSlow" .count standard.macdSlow <|
  .defaulted "macdSignal" .count standard.macdSignal <|
  .defaulted "stochLength" .count standard.stochLength <|
  .defaulted "stochSmoothK" .count standard.stochSmoothK <|
  .defaulted "stochSmoothD" .count standard.stochSmoothD <|
  .defaulted "cciLength" .count standard.cciLength <|
  .defaulted "period" .count standard.period <|
  .defaulted "overbought" .real standard.overbought <|
  .defaulted "oversold" .real standard.oversold <|
  .defaulted "oscillatorType" .small standard.oscillatorType .nil

def codec : Codec Config :=
  .record "struct AldoConfig" fields
    (fun (trailingStopLoss, exitBars, rsiLength, macdFast, macdSlow, macdSignal, stochLength,
        stochSmoothK, stochSmoothD, cciLength, period, overbought, oversold, oscillatorType, ()) =>
      ⟨trailingStopLoss, exitBars, rsiLength, macdFast, macdSlow, macdSignal, stochLength,
        stochSmoothK, stochSmoothD, cciLength, period, overbought, oversold, oscillatorType⟩)
    (fun c => (c.trailingStopLoss, c.exitBars, c.rsiLength, c.macdFast, c.macdSlow, c.macdSignal,
      c.stochLength, c.stochSmoothK, c.stochSmoothD, c.cciLength, c.period, c.overbought, c.oversold,
      c.oscillatorType, ()))

def oscillator (c : Config) : OscillatorKind :=
  .ofCode c.oscillatorType

def lengthsValid (c : Config) : Bool :=
  match c.oscillator with
  | .cci => 0 < c.cciLength
  | .rsi => 0 < c.rsiLength
  | .macd => 0 < c.macdFast && 0 < c.macdSlow && 0 < c.macdSignal

def validate (c : Config) : Except ConfigFault Unit :=
  if c.period = 0 then .error .zeroDivergencePeriod
  else if !c.lengthsValid then .error .zeroOscillatorLength
  else .ok ()

end Config

inductive Oscillator where
  | cci (state : Cci)
  | rsi (state : Rsi)
  | macd (state : Macd)
  deriving Repr

namespace Oscillator

def fresh (c : Config) : Oscillator :=
  match c.oscillator with
  | .cci => cci (Cci.fresh c.cciLength)
  | .rsi => rsi (Rsi.fresh c.rsiLength)
  | .macd => macd (Macd.fresh c.macdFast c.macdSlow c.macdSignal)

def update (o : Oscillator) (c : Candle) : Oscillator :=
  match o with
  | cci s => cci (s.update c)
  | rsi s => rsi (s.update c)
  | macd s => macd (s.update c)

def value : Oscillator → Float
  | cci s => s.value
  | rsi s => s.value
  | macd s => s.value

instance : Persistent Oscillator where
  checkpoint
    | cci s => checkpoint s
    | rsi s => checkpoint s
    | macd s => checkpoint s
  load o text :=
    match o with
    | cci s => (Persistent.load s text).map cci
    | rsi s => (Persistent.load s text).map rsi
    | macd s => (Persistent.load s text).map macd

end Oscillator

/-- The latest extremes of price and oscillator, and those before. -/
structure Extrema where
  lastPriceHigh : Float
  prevPriceHigh : Float
  lastPriceLow : Float
  prevPriceLow : Float
  lastOscHigh : Float
  prevOscHigh : Float
  lastOscLow : Float
  prevOscLow : Float
  deriving Repr

namespace Extrema

def zero : Extrema :=
  ⟨0.0, 0.0, 0.0, 0.0, 0.0, 0.0, 0.0, 0.0⟩

def fields :=
  Fields.required "last_price_high" .real <|
  .required "prev_price_high" .real <|
  .required "last_price_low" .real <|
  .required "prev_price_low" .real <|
  .required "last_osc_high" .lossless <|
  .required "prev_osc_high" .lossless <|
  .required "last_osc_low" .lossless <|
  .required "prev_osc_low" .lossless .nil

def codec : Codec Extrema :=
  .record "struct Extrema" fields
    (fun (lastPriceHigh, prevPriceHigh, lastPriceLow, prevPriceLow, lastOscHigh, prevOscHigh,
        lastOscLow, prevOscLow, ()) =>
      ⟨lastPriceHigh, prevPriceHigh, lastPriceLow, prevPriceLow, lastOscHigh, prevOscHigh,
        lastOscLow, prevOscLow⟩)
    (fun e => (e.lastPriceHigh, e.prevPriceHigh, e.lastPriceLow, e.prevPriceLow, e.lastOscHigh,
      e.prevOscHigh, e.lastOscLow, e.prevOscLow, ()))

end Extrema

/-- Which extremes of its window a candle sets. -/
structure Flags where
  priceHigh : Bool
  priceLow : Bool
  oscHigh : Bool
  oscLow : Bool
  deriving DecidableEq, Repr

/-- The extremes after a candle. Where a flag is set, the last and the previous extreme both take the
current value. -/
def Extrema.next (e : Extrema) (flags : Flags) (c : Candle) (osc : Float) : Extrema :=
  let pick := fun (flag : Bool) (new old : Float) => if flag then new else old
  let lastPriceHigh := pick flags.priceHigh c.high e.lastPriceHigh
  let lastPriceLow := pick flags.priceLow c.low e.lastPriceLow
  let lastOscHigh := pick flags.oscHigh osc e.lastOscHigh
  let lastOscLow := pick flags.oscLow osc e.lastOscLow
  { lastPriceHigh := lastPriceHigh
    prevPriceHigh := pick flags.priceHigh lastPriceHigh e.prevPriceHigh
    lastPriceLow := lastPriceLow
    prevPriceLow := pick flags.priceLow lastPriceLow e.prevPriceLow
    lastOscHigh := lastOscHigh
    prevOscHigh := pick flags.oscHigh lastOscHigh e.prevOscHigh
    lastOscLow := lastOscLow
    prevOscLow := pick flags.oscLow lastOscLow e.prevOscLow }

/-- The signal of a candle against the extremes that it leaves: regular and hidden divergences, the
bearish ones first. -/
def Extrema.signal? (e : Extrema) (flags : Flags) (c : Candle) (osc : Float) : Option Signal :=
  let regularBearish := flags.priceHigh && e.prevPriceHigh ≤ c.high && osc ≤ e.prevOscHigh
  let hiddenBearish := flags.priceHigh && c.high ≤ e.prevPriceHigh && osc ≤ e.prevOscHigh
  let regularBullish := flags.priceLow && c.low ≤ e.prevPriceLow && e.prevOscLow ≤ osc
  let hiddenBullish := flags.priceLow && e.prevPriceLow ≤ c.low && osc ≤ e.prevOscLow
  if regularBearish || hiddenBearish then some (.sure .openShort)
  else if regularBullish || hiddenBullish then some (.sure .openLong)
  else none

/-- The state of the strategy. -/
structure State where
  config : Config
  oscillator : Oscillator
  highs : Window
  lows : Window
  oscs : Window
  age : Nat
  extrema : Extrema
  deriving Repr

def name : String := "Aldo"

def description : String := "Trades price/oscillator divergences"

namespace State

def fresh (config : Config) : State :=
  ⟨config, Oscillator.fresh config, Window.blank config.period, Window.blank config.period,
    Window.blank config.period, 0, Extrema.zero⟩

def flags (s : State) (c : Candle) (osc : Float) : Flags where
  priceHigh := s.highs.max ≤ c.high
  priceLow := c.low ≤ s.lows.min
  oscHigh := s.oscs.max ≤ osc
  oscLow := osc ≤ s.oscs.min

def observe (s : State) (c : Candle) : State :=
  let oscillator := s.oscillator.update c
  { s with
    oscillator := oscillator
    highs := s.highs.set s.age c.high
    lows := s.lows.set s.age c.low
    oscs := s.oscs.set s.age oscillator.value
    age := s.age + 1 }

/-- The state after a candle, and the signal. There is none until the windows are full. -/
def update (s : State) (c : Candle) : State × Option Signal :=
  let s := s.observe c
  if s.age < s.config.period then (s, none)
  else
    let osc := s.oscillator.value
    let flags := s.flags c osc
    let extrema := s.extrema.next flags c osc
    ({ s with extrema := extrema }, extrema.signal? flags c osc)

def preload (s : State) (c : Candle) : State :=
  (s.update c).1

def probes (s : State) (c : Candle) : List Probe :=
  if s.age < s.config.period then []
  else
    let osc := s.oscillator.value
    let flags := s.flags c osc
    let e := s.extrema
    [⟨"oscillator", 0, osc⟩,
      ⟨"last_price_high", 1, e.lastPriceHigh⟩,
      ⟨"prev_price_high", 1, e.prevPriceHigh⟩,
      ⟨"last_price_low", 1, e.lastPriceLow⟩,
      ⟨"prev_price_low", 1, e.prevPriceLow⟩,
      ⟨"last_osc_high", 2, e.lastOscHigh⟩,
      ⟨"prev_osc_high", 2, e.prevOscHigh⟩,
      ⟨"last_osc_low", 2, e.lastOscLow⟩,
      ⟨"prev_osc_low", 2, e.prevOscLow⟩,
      .flag "price_high" 3 flags.priceHigh,
      .flag "price_low" 3 flags.priceLow,
      .flag "osc_high" 3 flags.oscHigh,
      .flag "osc_low" 3 flags.oscLow,
      ⟨"window_high", 4, s.highs.max⟩,
      ⟨"window_low", 4, s.lows.min⟩,
      ⟨"window_osc_high", 5, s.oscs.max⟩,
      ⟨"window_osc_low", 5, s.oscs.min⟩]

end State

structure Saved where
  config : Config
  oscillator : String
  highs : Window
  lows : Window
  oscs : Window
  age : Nat
  extrema : Extrema

def fields :=
  Fields.required "config" Config.codec <|
  .required "oscillator" .text <|
  .required "highs" Window.codec <|
  .required "lows" Window.codec <|
  .required "oscs" Window.codec <|
  .required "age" .count <|
  .required "extrema" Extrema.codec .nil

def savedCodec : Codec Saved :=
  .record "struct AldoRecord" fields
    (fun (config, oscillator, highs, lows, oscs, age, extrema, ()) =>
      ⟨config, oscillator, highs, lows, oscs, age, extrema⟩)
    (fun s => (s.config, s.oscillator, s.highs, s.lows, s.oscs, s.age, s.extrema, ()))

def State.saved (s : State) : Saved :=
  ⟨s.config, checkpoint s.oscillator, s.highs, s.lows, s.oscs, s.age, s.extrema⟩

def Saved.windowsFit (r : Saved) : Bool :=
  r.highs.capacity == r.config.period && r.lows.capacity == r.config.period &&
    r.oscs.capacity == r.config.period

instance : Persistent State where
  checkpoint s := savedCodec.encode s.saved
  load _ text := do
    let r ← readRecord name savedCodec text
    acceptConfig name r.config.validate
    if !r.windowsFit then
      .error (.invalid name "window length does not match the divergence period")
    else
      let oscillator ← Persistent.load (State.fresh r.config).oscillator r.oscillator
      return ⟨r.config, oscillator, r.highs, r.lows, r.oscs, r.age, r.extrema⟩

end SignalEngine.Aldo
