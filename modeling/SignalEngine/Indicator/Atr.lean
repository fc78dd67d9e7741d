import SignalEngine.Checkpoint
import SignalEngine.Json.Record
import SignalEngine.Market.Candle
import SignalEngine.Window

namespace SignalEngine

open Json (Codec Fields)

structure Atr where
  period : Nat
  age : Nat
  highs : Window
  lows : Window
  closes : Window
  ready : Bool
  value : Float
  deriving Repr

namespace Atr

def fresh (period : Nat) : Atr :=
  ⟨period, 0, Window.blank period, Window.blank period, Window.blank period, false, 0.0⟩

/-- The larger of two distances; the first, if the second is not larger. -/
def widen (range gap : Float) : Float :=
  if range < gap then gap else range

/-- The true range of a candle: its own range, or its distance from the close before it. -/
def trueRange (high low previousClose : Float) : Float :=
  widen (widen (high - low) (high - previousClose).abs) (low - previousClose).abs

def rangeAt (highs lows closes : Window) (age : Int) : Float :=
  trueRange (highs.get age) (lows.get age) (closes.get (age - 1))

def rangeSum (highs lows closes : Window) (period : Nat) (age : Int) : Float :=
  (List.range (period - 1)).foldl
    (fun sum (i : Nat) => sum + rangeAt highs lows closes (age + 1 + (i + 1)))
    -- the slot after the newest is the oldest, and the close before it is gone
    (highs.get (age + 1) - lows.get (age + 1))

def update (s : Atr) (c : Candle) : Atr :=
  let highs := s.highs.set s.age c.high
  let lows := s.lows.set s.age c.low
  let closes := s.closes.set s.age c.close
  { s with
    age := s.age + 1
    highs := highs
    lows := lows
    closes := closes
    ready := s.ready || s.period ≤ s.age + 1
    value := rangeSum highs lows closes s.period s.age / Float.ofNat s.period }

def fields :=
  Fields.required "period" .count <|
  .required "age" .count <|
  .required "highs" Window.codec <|
  .required "lows" Window.codec <|
  .required "closes" Window.codec <|
  .required "ready" .boolean <|
  .required "value" .real .nil

def codec : Codec Atr :=
  .record "struct Atr" fields
    (fun (period, age, highs, lows, closes, ready, value, ()) =>
      ⟨period, age, highs, lows, closes, ready, value⟩)
    (fun s => (s.period, s.age, s.highs, s.lows, s.closes, s.ready, s.value, ()))

/-- A malformed text is passed over, and the state stays as it was. -/
instance : Persistent Atr where
  checkpoint := codec.encode
  load s text :=
    match readRecord "ATR" codec text with
    | .ok new => .ok new
    | .error _ => .ok s

end Atr

end SignalEngine
