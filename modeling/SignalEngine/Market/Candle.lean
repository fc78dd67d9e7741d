import SignalEngine.Json.Record
import SignalEngine.Market.Calendar
import SignalEngine.Market.Interval
import SignalEngine.Number.Word

namespace SignalEngine

open Json (Codec Fields)

/-- The first, highest, lowest and last price of an interval, and the volume traded in it. The time
is that of its opening, in milliseconds. -/
structure Candle where
  market : Nat
  symbol : Nat
  interval : Interval
  timestamp : Int
  opening : Float
  high : Float
  low : Float
  close : Float
  volume : Float
  deriving Repr

namespace Candle

def ofPrices (timestamp : Int) (opening high low close volume : Float) : Candle :=
  ⟨0, 0, Interval.standard, timestamp, opening, high, low, close, volume⟩

/-- A candle that carries nothing but a close: how one indicator feeds another. -/
def ofClose (close : Float) : Candle :=
  ofPrices 0 0.0 0.0 0.0 close 0.0

def withSource (market symbol : Nat) (interval : Interval) (c : Candle) : Candle :=
  { c with market, symbol, interval }

def typical (c : Candle) : Float :=
  (c.high + c.low + c.close) / 3.0

def midpoint (c : Candle) : Float :=
  (c.high + c.low) / 2.0

/-- The time, rounded down to a whole second. Less than a second above the least time there is, the
word that times are kept in overflows. -/
def wholeSecond (c : Candle) : Int :=
  Number.wrapSigned 63 (c.timestamp / 1000 * 1000)

/-- The prices and the volume are numbers, as they are on the wire. -/
def isFinite (c : Candle) : Bool :=
  c.opening.isFinite && c.high.isFinite && c.low.isFinite && c.close.isFinite && c.volume.isFinite

def fields :=
  Fields.defaulted "market" .identifier 0 <|
  .defaulted "symbolId" .identifier 0 <|
  .defaulted "interval" Interval.codec Interval.standard <|
  .required "timestamp" .time <|
  .required "open" .real <|
  .required "high" .real <|
  .required "low" .real <|
  .required "close" .real <|
  .defaulted "volume" .real 0.0 .nil

def codec : Codec Candle :=
  .record "struct Candle" fields
    (fun (market, symbol, interval, timestamp, opening, high, low, close, volume, ()) =>
      ⟨market, symbol, interval, timestamp, opening, high, low, close, volume⟩)
    (fun c => (c.market, c.symbol, c.interval, c.timestamp, c.opening, c.high, c.low, c.close,
      c.volume, ()))

@[simp] theorem close_ofClose (x : Float) : (ofClose x).close = x := rfl

theorem isFinite_close {c : Candle} (h : c.isFinite = true) : c.close.isFinite = true := by
  simp only [isFinite, Bool.and_eq_true] at h
  exact h.1.2

end Candle

end SignalEngine
