import SignalEngine.Indicator.Atr
import SignalEngine.Market.Probe
import SignalEngine.Market.Signal
import SignalEngine.Strategy.Error
import SignalEngine.Strategy.StopLoss

/-!
The trend-following strategy on bands of average true ranges. A line runs along one of two bands and
changes to the other when the close crosses it. Closes above the line open a long position under a
trailing stop, and closes below it a short one.
-/

namespace SignalEngine.SuperTrend

open Json (Codec Fields)

/-- The settings. The stop is in per cent. -/
structure Config where
  rangePeriod : Nat
  bandFactor : Float
  trailingStop : Float
  confidenceMultiplier : Float
  confidenceBias : Float
  deriving Repr

namespace Config

def standard : Config :=
  ⟨7, 3.0, 3.5, 20.0, 0.1⟩

def fields :=
  Fields.defaulted "atrPeriod" .count standard.rangePeriod <|
  .defaulted "bandFactor" .real standard.bandFactor <|
  .defaulted "trailingStop" .real standard.trailingStop <|
  .defaulted "confidenceMultiplier" .real standard.confidenceMultiplier <|
  .defaulted "confidenceBias" .real standard.confidenceBias .nil

def ofParts : Nat × Float × Float × Float × Float × Unit → Config :=
  fun (rangePeriod, bandFactor, trailingStop, multiplier, bias, ()) =>
    ⟨rangePeriod, bandFactor, trailingStop, multiplier, bias⟩

def parts (c : Config) : Nat × Float × Float × Float × Float × Unit :=
  (c.rangePeriod, c.bandFactor, c.trailingStop, c.confidenceMultiplier, c.confidenceBias, ())

def codec : Codec Config :=
  .record "struct SuperTrendConfig" fields ofParts parts

def validate (c : Config) : Except ConfigFault Unit :=
  if c.rangePeriod = 0 then .error .zeroRangePeriod
  else if !(0.0 ≤ c.trailingStop && c.trailingStop < 100.0) then .error .stopOutOfRange
  else if c.bandFactor < 0.0 || c.confidenceMultiplier < 0.0 then .error .negativeFactor
  else .ok ()

end Config

/-- The bands after a candle, and the line along one of them. -/
structure Bands where
  upperBasic : Float
  lowerBasic : Float
  upper : Float
  lower : Float
  line : Float
  deriving Repr

namespace Bands

def zero : Bands :=
  ⟨0.0, 0.0, 0.0, 0.0, 0.0⟩

def fields :=
  Fields.required "upper_basic" .real <|
  .required "lower_basic" .real <|
  .required "upper" .real <|
  .required "lower" .real <|
  .required "line" .real .nil

def codec : Codec Bands :=
  .record "struct Bands" fields
    (fun (upperBasic, lowerBasic, upper, lower, line, ()) =>
      ⟨upperBasic, lowerBasic, upper, lower, line⟩)
    (fun b => (b.upperBasic, b.lowerBasic, b.upper, b.lower, b.line, ()))

/-- The next upper band: it only falls, unless the last close was above it. -/
def nextUpper (b : Bands) (lastClose basic : Float) : Float :=
  if basic < b.upper || b.upper < lastClose then basic else b.upper

/-- The next lower band: it only rises, unless the last close was below it. -/
def nextLower (b : Bands) (lastClose basic : Float) : Float :=
  if b.lower < basic || lastClose < b.lower then basic else b.lower

end Bands

inductive Side where
  | upper
  | lower
  deriving DecidableEq, Repr

/-- The band that the line follows next. It stays at its band as long as the close is on the inner
side, and none is found only among numbers that cannot be compared. -/
def Bands.side? (b : Bands) (close upper lower : Float) : Option Side :=
  if b.line == b.upper && close ≤ upper then some .upper
  else if b.line == b.upper && upper ≤ close then some .lower
  else if b.line == b.lower && lower ≤ close then some .lower
  else if b.line == b.lower && close ≤ lower then some .upper
  else none

/-- The state of the strategy. -/
structure State where
  config : Config
  range : Atr
  stop : StopLoss
  bands : Bands
  lastClose : Float
  age : Nat
  confidence : Float
  lastBuyConfidence : Float
  deriving Repr

def name : String := "SuperTrend"

def description : String := "Follows ATR SuperTrend bands with a trailing stop"

namespace State

def fresh (config : Config) : State :=
  ⟨config, Atr.fresh config.rangePeriod, StopLoss.fresh config.trailingStop, Bands.zero, 0.0, 0, 0.0,
    0.0⟩

/-- The bands, the last close and the confidence after a candle, given the average true range. -/
def follow (s : State) (c : Candle) : State :=
  let offset := s.range.value * s.config.bandFactor
  let upperBasic := c.midpoint + offset
  let lowerBasic := c.midpoint - offset
  let upper := s.bands.nextUpper s.lastClose upperBasic
  let lower := s.bands.nextLower s.lastClose lowerBasic
  -- after a close of zero the confidence is infinite or no number at all
  let (line, confidence) := match s.bands.side? c.close upper lower with
    | some .upper => (upper, (upper - c.close) / c.close)
    | some .lower => (lower, (c.close - lower) / c.close)
    | none => (0.0, s.confidence)
  { s with
    bands := ⟨upperBasic, lowerBasic, upper, lower, line⟩
    lastClose := c.close
    confidence := confidence }

/-- Takes in a candle. The flag tells whether the bands have begun. -/
def advance (s : State) (c : Candle) : State × Bool :=
  let s := { s with range := s.range.update c, age := s.age + 1 }
  -- they begin with the last of the first `rangePeriod` candles
  if s.age < s.config.rangePeriod then (s, false) else (s.follow c, true)

def preload (s : State) (c : Candle) : State :=
  (s.advance c).1

def buyConfidence (s : State) : Float :=
  Number.smaller (s.confidence * s.config.confidenceMultiplier) 1.0

/-- Takes the stop away and forgets the last buy. -/
def leave (s : State) : State :=
  { s with stop := s.stop.lift, lastBuyConfidence := 0.0 }

/-- What to do about a close, once the bands are up to date. A long position is opened, or opened
again, only if the confidence has grown by the bias. -/
def trade (s : State) (close : Float) : State × Option Signal :=
  if s.stop.isTriggered close then
    (s.leave, some (.sure .closeLong))
  else if s.bands.line < close then
    let s := { s with stop := s.stop.place close }
    let confidence := s.buyConfidence
    if confidence - s.lastBuyConfidence < s.config.confidenceBias then (s, none)
    else ({ s with lastBuyConfidence := confidence }, some ⟨.openLong, confidence⟩)
  else if close < s.bands.line then
    (s.leave, some (.sure .openShort))
  else (s, none)

def update (s : State) (c : Candle) : State × Option Signal :=
  match s.advance c with
  | (s, false) => (s, none)
  | (s, true) => s.trade c.close

def probes (s : State) : List Probe :=
  [⟨"supertrend", 0, s.bands.line⟩, ⟨"atr", 1, s.range.value⟩, ⟨"confidence", 2, s.confidence⟩]

end State

structure Saved where
  config : Config
  bands : Bands
  lastClose : Float
  age : Nat
  confidence : Float
  lastBuyConfidence : Float
  stop : String
  range : String

def fields :=
  Fields.required "config" Config.codec <|
  .required "bands" Bands.codec <|
  .required "last_close" .real <|
  .required "age" .count <|
  .required "confidence" .real <|
  .required "last_buy_confidence" .real <|
  .required "stop_loss" .text <|
  .required "atr" .text .nil

def savedCodec : Codec Saved :=
  .record "struct SuperTrendRecord" fields
    (fun (config, bands, lastClose, age, confidence, lastBuyConfidence, stop, range, ()) =>
      ⟨config, bands, lastClose, age, confidence, lastBuyConfidence, stop, range⟩)
    (fun s => (s.config, s.bands, s.lastClose, s.age, s.confidence, s.lastBuyConfidence, s.stop,
      s.range, ()))

def State.saved (s : State) : Saved :=
  ⟨s.config, s.bands, s.lastClose, s.age, s.confidence, s.lastBuyConfidence, checkpoint s.stop,
    checkpoint s.range⟩

instance : Persistent State where
  checkpoint s := savedCodec.encode s.saved
  load _ text := do
    let r ← readRecord name savedCodec text
    acceptConfig name r.config.validate
    let fresh := State.fresh r.config
    let stop ← Persistent.load fresh.stop r.stop
    let range ← Persistent.load fresh.range r.range
    return ⟨r.config, range, stop, r.bands, r.lastClose, r.age, r.confidence, r.lastBuyConfidence⟩

end SignalEngine.SuperTrend
